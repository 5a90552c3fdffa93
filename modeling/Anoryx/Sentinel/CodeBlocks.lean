import Anoryx.Utf8
import Anoryx.PyText
import Mathlib.Data.List.ReduceOption
import Mathlib.Tactic.Linarith

/-!
# Anoryx.Sentinel.CodeBlocks

`extract_code_blocks` (`code_scan/extractor.py`): the fenced blocks of a text, up to a number of
blocks and of octets.

The scan cuts the lines of a text in one way into plain lines and fences with their bodies
(`Scans.unique`), and it answers each fence with a block or counts it as skipped
(`extractCodeBlocks_eq`).  The octets of a body that is too long are counted before they are read
back as text; where the cut falls after one or two octets of a character, the replacement character
for it takes more octets than were counted, and the block is longer than its cap (`capped_iff`).
-/

namespace Anoryx.Sentinel.CodeBlocks

open PyJson hiding isSpace
open PyText Utf8

/-! ## lines -/

abbrev Line := List CodePoint

/-- Where `splitlines` ends a line -/
def isBoundary (p : CodePoint) : Bool :=
  decide (p.val ∈ [0x0a, 0x0b, 0x0c, 0x0d, 0x1c, 0x1d, 0x1e, 0x85, 0x2028, 0x2029])

/-- `line` is what there is of a line; a line feed after a carriage return ends no other one. -/
def splitlinesFrom (line : Line) (afterReturn : Bool) : List CodePoint → List Line
  | [] => if line = [] then [] else [line]
  | p :: text =>
      if afterReturn && p = 0x0a then splitlinesFrom line false text
      else if isBoundary p then line :: splitlinesFrom [] (p = 0x0d) text
      else splitlinesFrom (line ++ [p]) false text

/-- `text.splitlines()` -/
def splitlines (text : List CodePoint) : List Line := splitlinesFrom [] false text

/-! ## fences -/

/-- "```" -/
def fence : Line := [0x60, 0x60, 0x60]

/-- `_FENCE_OPEN_RE.match(line)`, with the info string; there is no line feed in a line. -/
def fenceOpen (line : Line) : Option Line := if fence.isPrefixOf line then some (line.drop 3) else none

/-- `_FENCE_CLOSE_RE.match(line)` -/
def fenceClose (line : Line) : Bool := fence.isPrefixOf line && (line.drop 3).all PyText.isSpace

variable (lower : List CodePoint → List CodePoint)

/-- The first word of the info string, by `str.lower` -/
def language (info : Line) : List CodePoint :=
  match (PyText.strip info).takeWhile fun p => !PyText.isSpace p with
  | [] => []
  | word => lower word

/-! ## the caps -/

def maxBlocks : Nat := 20

def maxBytesPerBlock : Nat := 65536

def maxTotalBytes : Nat := 524288

structure CodeBlock where
  language : List CodePoint
  content : List CodePoint
  truncated : Bool
  deriving DecidableEq

structure ExtractionResult where
  blocks : List CodeBlock
  skippedCount : Nat
  totalBytes : Nat

/-- `"\n".join(body_lines)` -/
def contentRaw (body : List Line) : List CodePoint := [0x0a].intercalate body

/-- `content_bytes`, after the cap of a block -/
def contentBytes (body : List Line) : List Nat := (encode (contentRaw body)).take maxBytesPerBlock

/-- `len(content_bytes) > MAX_BYTES_PER_BLOCK` -/
def isTruncated (body : List Line) : Bool := decide (maxBytesPerBlock < (encode (contentRaw body)).length)

/-- The block of a fence -/
def blockOf (info : Line) (body : List Line) : CodeBlock where
  language := language lower info
  content := if isTruncated body then decode (contentBytes body) else contentRaw body
  truncated := isTruncated body

/-- What becomes of a block: the cap on all octets comes first, then the one on blocks. -/
def addBlock (result : ExtractionResult) (info : Line) (body : List Line) : ExtractionResult :=
  if maxTotalBytes < result.totalBytes + (contentBytes body).length then
    { result with skippedCount := result.skippedCount + 1 }
  else if maxBlocks ≤ result.blocks.length then { result with skippedCount := result.skippedCount + 1 }
  else
    { result with
      blocks := result.blocks ++ [blockOf lower info body]
      totalBytes := result.totalBytes + (contentBytes body).length }

/-! ## the scan -/

/-- The inner loop: the lines before a closing fence, and those after it. -/
def bodyLines : List Line → List Line × List Line
  | [] => ([], [])
  | line :: lines =>
      if fenceClose line then ([], lines) else (line :: (bodyLines lines).1, (bodyLines lines).2)

theorem length_bodyLines_le (lines : List Line) : (bodyLines lines).2.length ≤ lines.length := by
  induction lines with
  | nil => exact Nat.le_refl _
  | cons line lines ih =>
      rw [bodyLines]
      split
      · exact Nat.le_succ _
      · exact Nat.le_succ_of_le ih

/-- The outer loop -/
def extractFrom (result : ExtractionResult) : List Line → ExtractionResult
  | [] => result
  | line :: lines =>
      match fenceOpen line with
      | none => extractFrom result lines
      | some info => extractFrom (addBlock lower result info (bodyLines lines).1) (bodyLines lines).2
termination_by lines => lines.length
decreasing_by
  · exact Nat.lt_succ_self _
  · exact Nat.lt_succ_of_le (length_bodyLines_le lines)

def extractCodeBlocks (text : List CodePoint) : ExtractionResult := extractFrom lower ⟨[], 0, 0⟩ (splitlines text)

/-! ## the fences of a text -/

/-- A part of the lines: a line without a fence, or an opening fence with the lines to the closing
one, or to the end. -/
inductive Segment where
  | plain (line : Line)
  | fenced (opening : Line) (body : List Line) (closing : Option Line)

def Segment.lines : Segment → List Line
  | .plain line => [line]
  | .fenced opening body closing => opening :: body ++ closing.toList

/-- How the lines are cut into parts: a fence goes to the first line that closes it. -/
inductive Scans : List Line → List Segment → Prop
  | nil : Scans [] []
  | plain {line lines segments} : fenceOpen line = none → Scans lines segments →
      Scans (line :: lines) (.plain line :: segments)
  | closed {opening info body closing lines segments} : fenceOpen opening = some info →
      (∀ line ∈ body, fenceClose line = false) → fenceClose closing = true → Scans lines segments →
        Scans (opening :: (body ++ closing :: lines)) (.fenced opening body (some closing) :: segments)
  | unclosed {opening info body} : fenceOpen opening = some info → (∀ line ∈ body, fenceClose line = false) →
      Scans (opening :: body) [.fenced opening body none]

variable {segments segments' : List Segment} {text word : List CodePoint}

theorem Scans.lines_eq {lines : List Line} (h : Scans lines segments) : segments.flatMap Segment.lines = lines := by
  induction h with
  | nil => rfl
  | plain _ _ ih => simp [Segment.lines, ih]
  | closed _ _ _ _ ih => simp [Segment.lines, ih]
  | unclosed => simp [Segment.lines]

theorem bodyLines_append {body lines : List Line} {closing : Line} (hbody : ∀ line ∈ body, fenceClose line = false)
    (hclosing : fenceClose closing = true) : bodyLines (body ++ closing :: lines) = (body, lines) := by
  induction body with
  | nil => simp [bodyLines, hclosing]
  | cons line body ih =>
      rw [List.forall_mem_cons] at hbody
      rw [List.cons_append, bodyLines, ih hbody.2, hbody.1]
      rfl

theorem bodyLines_eq_self {body : List Line} (hbody : ∀ line ∈ body, fenceClose line = false) :
    bodyLines body = (body, []) := by
  induction body with
  | nil => rfl
  | cons line body ih =>
      rw [List.forall_mem_cons] at hbody
      rw [bodyLines, ih hbody.2, hbody.1]
      rfl

theorem bodyLines_cases (lines : List Line) :
    (∃ body closing rest, lines = body ++ closing :: rest ∧ (∀ line ∈ body, fenceClose line = false) ∧
      fenceClose closing = true) ∨ ∀ line ∈ lines, fenceClose line = false := by
  induction lines with
  | nil => exact Or.inr (by simp)
  | cons line lines ih =>
      cases hclose : fenceClose line with
      | true => exact Or.inl ⟨[], line, lines, rfl, by simp, hclose⟩
      | false =>
          rcases ih with ⟨body, closing, rest, rfl, hbody, hclosing⟩ | hbody
          · exact Or.inl ⟨line :: body, closing, rest, rfl, List.forall_mem_cons.mpr ⟨hclose, hbody⟩, hclosing⟩
          · exact Or.inr (List.forall_mem_cons.mpr ⟨hclose, hbody⟩)

theorem exists_scans (lines : List Line) : ∃ segments, Scans lines segments := by
  induction hn : lines.length using Nat.strong_induction_on generalizing lines with
  | _ n ih =>
      cases lines with
      | nil => exact ⟨[], .nil⟩
      | cons line lines =>
          cases hopen : fenceOpen line with
          | none =>
              obtain ⟨segments, h⟩ := ih lines.length (by simp [← hn]) lines rfl
              exact ⟨_, .plain hopen h⟩
          | some info =>
              rcases bodyLines_cases lines with ⟨body, closing, rest, rfl, hbody, hclosing⟩ | hbody
              · obtain ⟨segments, h⟩ := ih rest.length (by simp [← hn]; omega) rest rfl
                exact ⟨_, .closed hopen hbody hclosing h⟩
              · exact ⟨_, .unclosed hopen hbody⟩

/-- A text is segmented in one way. -/
theorem Scans.unique {lines : List Line} (h : Scans lines segments) (h' : Scans lines segments') :
    segments = segments' := by
  induction h generalizing segments' with
  | nil =>
      cases h'
      rfl
  | plain hopen _ ih =>
      cases h' with
      | plain _ hrest => rw [ih hrest]
      | closed hopen' => simp [hopen] at hopen'
      | unclosed hopen' => simp [hopen] at hopen'
  | closed hopen hbody hclosing _ ih =>
      generalize hlines : _ :: (_ ++ _ :: _) = lines at h'
      cases h' with
      | nil => contradiction
      | plain hopen' =>
          obtain ⟨rfl, -⟩ := List.cons.inj hlines
          simp [hopen] at hopen'
      | closed hopen' hbody' hclosing' hrest =>
          obtain ⟨rfl, htail⟩ := List.cons.inj hlines
          have hsame := congrArg bodyLines htail
          rw [bodyLines_append hbody hclosing, bodyLines_append hbody' hclosing'] at hsame
          obtain ⟨rfl, rfl⟩ := Prod.mk.inj hsame
          obtain ⟨rfl, -⟩ := List.cons.inj (List.append_cancel_left htail)
          rw [ih hrest]
      | unclosed hopen' hbody' =>
          obtain ⟨rfl, rfl⟩ := List.cons.inj hlines
          simp [hbody' _ (List.mem_append_right _ List.mem_cons_self)] at hclosing
  | unclosed hopen hbody =>
      cases h' with
      | plain hopen' => simp [hopen] at hopen'
      | closed hopen' hbody' hclosing' => simp [hbody _ (List.mem_append_right _ List.mem_cons_self)] at hclosing'
      | unclosed => rfl

/-! ## what becomes of each fence -/

/-- The fences, each with its info string and its body -/
def fences (segments : List Segment) : List (Line × List Line) :=
  segments.filterMap fun
    | .plain _ => none
    | .fenced opening body _ => (fenceOpen opening).map fun info => (info, body)

/-- How many blocks are taken, and how many octets they have -/
structure Budget where
  count : Nat
  bytes : Nat

/-- The octets that a block counts for -/
def bodySize (body : List Line) : Nat := min maxBytesPerBlock (encode (contentRaw body)).length

/-- A block still fits. -/
def Budget.Fits (budget : Budget) (size : Nat) : Prop :=
  budget.bytes + size ≤ maxTotalBytes ∧ budget.count < maxBlocks

instance (budget : Budget) (size : Nat) : Decidable (budget.Fits size) := inferInstanceAs (Decidable (_ ∧ _))

def Budget.admit (budget : Budget) (body : List Line) : Budget :=
  if budget.Fits (bodySize body) then ⟨budget.count + 1, budget.bytes + bodySize body⟩ else budget

/-- What becomes of fences one after the other: a block, or nothing. -/
def fates (budget : Budget) : List (Line × List Line) → List (Option CodeBlock)
  | [] => []
  | (info, body) :: rest =>
      (if budget.Fits (bodySize body) then some (blockOf lower info body) else none) :: fates ( budget.admit body) rest

def ExtractionResult.budget (result : ExtractionResult) : Budget := ⟨result.blocks.length, result.totalBytes⟩

variable {lower}

theorem length_contentBytes (body : List Line) : (contentBytes body).length = bodySize body := List.length_take

theorem addBlock_eq (result : ExtractionResult) (info : Line) (body : List Line) :
    addBlock lower result info body =
      if result.budget.Fits (bodySize body) then
        ⟨result.blocks ++ [blockOf lower info body], result.skippedCount, result.totalBytes + bodySize body⟩
      else ⟨result.blocks, result.skippedCount + 1, result.totalBytes⟩ := by
  rw [addBlock, length_contentBytes]
  unfold Budget.Fits ExtractionResult.budget
  grind

theorem budget_addBlock (result : ExtractionResult) (info : Line) (body : List Line) :
    (addBlock lower result info body).budget = result.budget.admit body := by
  rw [addBlock_eq, Budget.admit]
  split <;> simp [ExtractionResult.budget]

theorem extractFrom_eq {lines : List Line} (h : Scans lines segments) (result : ExtractionResult) :
    extractFrom lower result lines =
      (fences segments).foldl (fun result f => addBlock lower result f.1 f.2) result := by
  induction h generalizing result with
  | nil => rw [extractFrom]; rfl
  | plain hopen _ ih =>
      rw [extractFrom, hopen]
      exact ih result
  | closed hopen hbody hclosing _ ih =>
      rw [extractFrom, hopen]
      simp only [bodyLines_append hbody hclosing]
      rw [ih]
      simp [fences, hopen]
  | unclosed hopen hbody =>
      rw [extractFrom, hopen]
      simp only [bodyLines_eq_self hbody]
      rw [extractFrom]
      simp [fences, hopen]

variable (lower) in
theorem foldl_addBlock (fs : List (Line × List Line)) (result : ExtractionResult) :
    let final := fs.foldl (fun result f => addBlock lower result f.1 f.2) result
    final.blocks = result.blocks ++ (fates lower result.budget fs).reduceOption ∧
      final.skippedCount = result.skippedCount + (fates lower result.budget fs).count none ∧
      final.budget = fs.foldl (fun budget f => budget.admit f.2) result.budget := by
  induction fs generalizing result with
  | nil => simp [fates]
  | cons f fs ih =>
      obtain ⟨info, body⟩ := f
      obtain ⟨hblocks, hskipped, hbudget⟩ := ih (addBlock lower result info body)
      simp only [List.foldl_cons, fates]
      rw [budget_addBlock] at hblocks hskipped hbudget
      refine ⟨?_, ?_, hbudget⟩
      · rw [hblocks, addBlock_eq]
        split <;> simp
      · rw [hskipped, addBlock_eq]
        split
        · simp
        · simp only [reduceIte, List.count_cons, beq_self_eq_true]
          omega

/-! ## the octets of a block -/

/-- How many octets the content of a block has more than the block counts for -/
def excess (body : List Line) : Nat :=
  if isTruncated body ∧ cutOffset maxBytesPerBlock (contentRaw body) ≠ 0 then
    3 - cutOffset maxBytesPerBlock (contentRaw body)
  else 0

/-- The cap of a block cuts no character, or the last octet of one of four. -/
def CleanCut (body : List Line) : Prop :=
  maxBytesPerBlock < (encode (contentRaw body)).length →
    cutOffset maxBytesPerBlock (contentRaw body) = 0 ∨ cutOffset maxBytesPerBlock (contentRaw body) = 3

theorem excess_eq_zero_iff (body : List Line) : excess body = 0 ↔ CleanCut body := by
  have hle := cutOffset_le_three maxBytesPerBlock (contentRaw body)
  simp only [excess, CleanCut, isTruncated, decide_eq_true_eq]
  grind

/-- A block is longer than its lines by their excess. -/
theorem length_encode_blockOf (info : Line) (body : List Line) :
    (encode (blockOf lower info body).content).length = bodySize body + excess body := by
  have hle := cutOffset_le_three maxBytesPerBlock (contentRaw body)
  simp only [blockOf, excess, bodySize, isTruncated, decide_eq_true_eq]
  by_cases htruncated : maxBytesPerBlock < (encode (contentRaw body)).length
  · have hlength := length_encode_decode_take (Nat.le_of_lt htruncated)
    rw [if_pos htruncated, contentBytes, Nat.min_eq_left (Nat.le_of_lt htruncated)]
    by_cases hcut : cutOffset maxBytesPerBlock (contentRaw body) = 0
    · rw [if_neg (by simp [hcut])]
      simpa [hcut] using hlength
    · rw [if_pos ⟨htruncated, hcut⟩]
      rw [if_neg hcut] at hlength
      omega
  · rw [if_neg htruncated, if_neg (by simp [htruncated]), Nat.min_eq_right (by omega), Nat.add_zero]

/-! ## the fences that are taken -/

/-- The budget after fences -/
def Budget.after (budget : Budget) (fs : List (Line × List Line)) : Budget :=
  fs.foldl (fun budget f => budget.admit f.2) budget

/-- The fences that a block is returned for -/
def taken (budget : Budget) : List (Line × List Line) → List (Line × List Line)
  | [] => []
  | f :: rest => (if budget.Fits (bodySize f.2) then [f] else []) ++ taken ( budget.admit f.2) rest

theorem reduceOption_fates (budget : Budget) (fs : List (Line × List Line)) :
    (fates lower budget fs).reduceOption = (taken budget fs).map fun f => blockOf lower f.1 f.2 := by
  induction fs generalizing budget with
  | nil => rfl
  | cons f fs ih =>
      rw [fates, taken]
      split <;> simp [ih]

theorem length_fates (budget : Budget) (fs : List (Line × List Line)) : (fates lower budget fs).length = fs.length := by
  induction fs generalizing budget with
  | nil => rfl
  | cons f fs ih => rw [fates, List.length_cons, ih, List.length_cons]

theorem mem_taken_iff {budget : Budget} {fs : List (Line × List Line)} {f : Line × List Line} :
    f ∈ taken budget fs ↔
      ∃ before rest, fs = before ++ f :: rest ∧ (budget.after before).Fits (bodySize f.2) := by
  induction fs generalizing budget with
  | nil => simp [taken]
  | cons g fs ih =>
      rw [taken, List.mem_append, ih]
      constructor
      · rintro (hmem | ⟨before, rest, rfl, hfits⟩)
        · split at hmem
          case isTrue hfits =>
            obtain rfl := List.mem_singleton.mp hmem
            exact ⟨[], fs, rfl, hfits⟩
          case isFalse => contradiction
        · exact ⟨g :: before, rest, rfl, hfits⟩
      · rintro ⟨before, rest, hfs, hfits⟩
        cases before with
        | nil =>
            obtain ⟨rfl, rfl⟩ := List.cons.inj hfs
            have hfits : budget.Fits (bodySize g.2) := hfits
            exact Or.inl (by rw [if_pos hfits]; exact List.mem_singleton_self g)
        | cons g' before =>
            obtain ⟨rfl, rfl⟩ := List.cons.inj hfs
            exact Or.inr ⟨before, rest, rfl, hfits⟩

theorem bytes_after (budget : Budget) (fs : List (Line × List Line)) :
    (budget.after fs).bytes = budget.bytes + ((taken budget fs).map fun f => bodySize f.2).sum := by
  induction fs generalizing budget with
  | nil => rfl
  | cons f fs ih =>
      rw [Budget.after, List.foldl_cons, ← Budget.after, ih, taken, Budget.admit]
      split <;> simp [Nat.add_assoc]

theorem Budget.after_le {budget : Budget} (hcount : budget.count ≤ maxBlocks) (hbytes : budget.bytes ≤ maxTotalBytes)
    (fs : List (Line × List Line)) :
    (budget.after fs).count ≤ maxBlocks ∧ (budget.after fs).bytes ≤ maxTotalBytes := by
  induction fs generalizing budget with
  | nil => exact ⟨hcount, hbytes⟩
  | cons f fs ih =>
      rw [Budget.after, List.foldl_cons]
      apply ih
      all_goals
        unfold Budget.admit
        split
        case isTrue hfits => first | exact hfits.2 | exact hfits.1
        case isFalse => assumption

/-- The fences that fit after those before them are cut cleanly. -/
def CleanCuts (fs : List (Line × List Line)) : Prop :=
  ∀ before f rest, fs = before ++ f :: rest → (Budget.after ⟨0, 0⟩ before).Fits (bodySize f.2) → CleanCut f.2

theorem cleanCuts_iff (fs : List (Line × List Line)) : CleanCuts fs ↔ ∀ f ∈ taken ⟨0, 0⟩ fs, excess f.2 = 0 := by
  simp only [mem_taken_iff, excess_eq_zero_iff]
  constructor
  · rintro h f ⟨before, rest, hfs, hfits⟩
    exact h before f rest hfs hfits
  · intro h before f rest hfs hfits
    exact h f ⟨before, rest, hfs, hfits⟩

/-! ## the law of the caps -/

variable (lower)

/-- What the extraction should return, of the parts that the lines are cut into -/
structure Capped (text : List CodePoint) (segments : List Segment) (result : ExtractionResult) : Prop where
  scans : Scans (splitlines text) segments
  lines : segments.flatMap Segment.lines = splitlines text
  fates : ∃ fates : List (Option CodeBlock), List.Forall₂ (fun f fate => ∀ block ∈ fate, block = blockOf lower f.1 f.2)
    (fences segments) fates ∧ result.blocks = fates.reduceOption ∧ result.skippedCount = fates.count none
  count : result.blocks.length + result.skippedCount = (fences segments).length
  few : result.blocks.length ≤ maxBlocks
  each : ∀ block ∈ result.blocks, (encode block.content).length ≤ maxBytesPerBlock
  total : result.totalBytes = (result.blocks.map fun block => (encode block.content).length).sum
  bounded : result.totalBytes ≤ maxTotalBytes

variable {lower}

theorem forall₂_fates (budget : Budget) (fs : List (Line × List Line)) :
    List.Forall₂ (fun f fate => ∀ block ∈ fate, block = blockOf lower f.1 f.2) fs (fates lower budget fs) := by
  induction fs generalizing budget with
  | nil => exact .nil
  | cons f fs ih =>
      rw [fates]
      refine .cons ?_ (ih _)
      split <;> simp

theorem length_reduceOption_add_count {α : Type} [DecidableEq α] (xs : List (Option α)) :
    xs.reduceOption.length + xs.count none = xs.length := by
  induction xs with
  | nil => rfl
  | cons x xs ih =>
      cases x with
      | none =>
          rw [List.reduceOption_cons_of_none, List.count_cons_self, List.length_cons, ← ih]
          omega
      | some x =>
          rw [List.reduceOption_cons_of_some, List.count_cons_of_ne (by simp), List.length_cons, List.length_cons, ← ih]
          omega

variable (lower) in
theorem extractCodeBlocks_eq (h : Scans (splitlines text) segments) :
    (extractCodeBlocks lower text).blocks = (taken ⟨0, 0⟩ (fences segments)).map (fun f => blockOf lower f.1 f.2) ∧
      (extractCodeBlocks lower text).skippedCount = (fates lower ⟨0, 0⟩ (fences segments)).count none ∧
      (extractCodeBlocks lower text).budget = Budget.after ⟨0, 0⟩ (fences segments) := by
  obtain ⟨hblocks, hskipped, hbudget⟩ := foldl_addBlock lower (fences segments) ⟨[], 0, 0⟩
  rw [extractCodeBlocks, extractFrom_eq h]
  refine ⟨?_, ?_, hbudget⟩
  · rw [hblocks, ← reduceOption_fates]
    rfl
  · rw [hskipped, Nat.zero_add]
    rfl

variable (lower) in
theorem sum_encode (fs : List (Line × List Line)) (budget : Budget) :
    ((taken budget fs).map fun f => (encode (blockOf lower f.1 f.2).content).length).sum + budget.bytes =
      (budget.after fs).bytes + ((taken budget fs).map fun f => excess f.2).sum := by
  simp only [length_encode_blockOf, List.sum_map_add, bytes_after]
  omega

/-- The lines of any text are cut into parts in just one way; each fence is a block or is skipped; and the caps on
blocks and on all octets hold. -/
theorem extractCodeBlocks_scans (lower : List CodePoint → List CodePoint) (text : List CodePoint) :
    let result := extractCodeBlocks lower text
    ∃ segments, (∀ segments', Scans (splitlines text) segments' ↔ segments' = segments) ∧
      result.blocks = (fates lower ⟨0, 0⟩ (fences segments)).reduceOption ∧
      result.skippedCount = (fates lower ⟨0, 0⟩ (fences segments)).count none ∧
      result.blocks.length ≤ maxBlocks ∧ result.totalBytes ≤ maxTotalBytes := by
  obtain ⟨segments, h⟩ := exists_scans (splitlines text)
  obtain ⟨hblocks, hskipped, hbudget⟩ := extractCodeBlocks_eq lower h
  have hle := Budget.after_le (show Budget.count ⟨0, 0⟩ ≤ maxBlocks from Nat.zero_le _) (Nat.zero_le _) (fences segments)
  rw [← hbudget] at hle
  refine ⟨segments, fun _ => ⟨fun h' => h'.unique h, fun he => he ▸ h⟩, ?_, hskipped, hle⟩
  rw [hblocks, reduceOption_fates]

/-- The caps hold exactly of the texts in which no block that is returned is cut after one or two
octets of a character; the rest of the law holds of every text. -/
theorem capped_iff (lower : List CodePoint → List CodePoint) (text : List CodePoint) :
    (∃ segments, Capped lower text segments (extractCodeBlocks lower text)) ↔
      ∃ segments, Scans (splitlines text) segments ∧ CleanCuts (fences segments) := by
  constructor
  · rintro ⟨segments, h⟩
    refine ⟨segments, h.scans, (cleanCuts_iff _).mpr fun f hf => ?_⟩
    obtain ⟨hblocks, -, hbudget⟩ := extractCodeBlocks_eq lower h.scans
    have hsum := sum_encode lower (fences segments) ⟨0, 0⟩
    have htotal : (Budget.after ⟨0, 0⟩ (fences segments)).bytes =
        ((taken ⟨0, 0⟩ (fences segments)).map fun f => (encode (blockOf lower f.1 f.2).content).length).sum := by
      rw [← hbudget]
      refine h.total.trans ?_
      rw [hblocks, List.map_map]
      rfl
    have hzero : ((taken ⟨0, 0⟩ (fences segments)).map fun f => excess f.2).sum = 0 := by
      rw [← htotal] at hsum
      exact Nat.add_left_cancel hsum.symm
    exact List.sum_eq_zero_iff.mp hzero _ (List.mem_map_of_mem hf)
  · rintro ⟨segments, hscans, hclean⟩
    rw [cleanCuts_iff] at hclean
    obtain ⟨hblocks, hskipped, hbudget⟩ := extractCodeBlocks_eq lower hscans
    have hsum := sum_encode lower (fences segments) ⟨0, 0⟩
    have hle := Budget.after_le (show Budget.count ⟨0, 0⟩ ≤ maxBlocks from Nat.zero_le _) (Nat.zero_le _) (fences segments)
    rw [← hbudget] at hle hsum
    refine ⟨segments, hscans, hscans.lines_eq, ⟨_, forall₂_fates ⟨0, 0⟩ (fences segments), ?_, hskipped⟩, ?_, hle.1, ?_, ?_, hle.2⟩
    · rw [hblocks, reduceOption_fates]
    · rw [hblocks, hskipped, ← reduceOption_fates, length_reduceOption_add_count, length_fates]
    · rw [hblocks, List.forall_mem_map]
      intro f hf
      rw [length_encode_blockOf, hclean f hf]
      exact Nat.min_le_left ..
    · have hzero : ((taken ⟨0, 0⟩ (fences segments)).map fun f => excess f.2).sum = 0 := by
        rw [List.sum_eq_zero_iff, List.forall_mem_map]
        exact hclean
      rw [hzero] at hsum
      rw [hblocks, List.map_map]
      exact hsum.symm

/-! ## a cut character -/

theorem splitlinesFrom_append (hword : ∀ p ∈ word, isBoundary p = false) (line : Line) (text : List CodePoint) :
    splitlinesFrom line false (word ++ text) = splitlinesFrom (line ++ word) false text := by
  induction word generalizing line with
  | nil => simp
  | cons p word ih =>
      rw [List.forall_mem_cons] at hword
      rw [List.cons_append, splitlinesFrom, Bool.false_and, if_neg Bool.false_ne_true, hword.1, if_neg Bool.false_ne_true,
        ih hword.2, List.append_assoc]
      rfl

/-- `n` letters, and one that takes two octets -/
def accented (n : Nat) : Line := List.replicate n 0x61 ++ [0xe9]

theorem encode_letters (n : Nat) : (encode (List.replicate n 0x61)).length = n := by
  induction n with
  | zero => rfl
  | succ n ih =>
      have hone : (encodePoint (written 0x61).val).length = 1 := by decide
      rw [List.replicate_succ, encode_cons, List.length_append, ih, hone, Nat.add_comm]

theorem excess_accented {n : Nat} (hn : n = 65535) : bodySize [accented n] = maxBytesPerBlock ∧ excess [accented n] = 2 := by
  have hraw : contentRaw [accented n] = accented n := List.intercalate_singleton
  have hlength : (encode (accented n)).length = n + 2 := by
    rw [accented, encode_append, List.length_append, encode_letters]
    rfl
  have hcut : cutOffset maxBytesPerBlock (accented n) = 1 := by
    rw [accented, cutOffset_append (by rw [encode_letters, maxBytesPerBlock]; omega), encode_letters, maxBytesPerBlock, hn]
    decide
  rw [bodySize, excess, isTruncated, hraw, hlength, hcut]
  simp [maxBytesPerBlock, hn]

theorem scans_accented {n : Nat} (hn : 0 < n) :
    Scans (splitlines (fence ++ 0x0a :: accented n)) [.fenced fence [accented n] none] := by
  have hplain : ∀ p ∈ accented n, isBoundary p = false := by
    simp only [accented, List.mem_append, List.mem_replicate, List.mem_singleton]
    rintro p (⟨-, rfl⟩ | rfl) <;> decide
  have hlast : splitlinesFrom [] false (accented n) = [accented n] := by
    have happend := splitlinesFrom_append hplain [] []
    rw [List.append_nil, List.nil_append] at happend
    rw [happend, splitlinesFrom, if_neg (by simp [accented])]
  have hlines : splitlines (fence ++ 0x0a :: accented n) = [fence, accented n] := by
    rw [splitlines, splitlinesFrom_append (by simp [fence, isBoundary])]
    show fence :: splitlinesFrom [] false (accented n) = _
    rw [hlast]
  obtain ⟨m, rfl⟩ := Nat.exists_eq_add_of_le' hn
  rw [hlines]
  have hopen : fenceOpen fence = some [] := by decide
  apply Scans.unclosed hopen
  · intro line hline
    rw [List.mem_singleton.mp hline, accented, List.replicate_succ]
    rfl

/-- A block of 65537 octets, of which the cap cuts off the last, is returned with 65538. -/
theorem accented_not_capped : ¬ ∀ (lower : List CodePoint → List CodePoint) text,
    ∃ segments, Capped lower text segments (extractCodeBlocks lower text) := by
  intro h
  -- The number is kept a variable, so that no text of that length is written out.
  obtain ⟨n, hn⟩ : ∃ n : Nat, n = 65535 := ⟨_, rfl⟩
  obtain ⟨segments, hcapped⟩ := h id (fence ++ 0x0a :: accented n)
  have hscans : Scans (splitlines (fence ++ 0x0a :: accented n)) [.fenced fence [accented n] none] :=
    scans_accented (by omega)
  obtain rfl := hcapped.scans.unique hscans
  have hfences : fences [.fenced fence [accented n] none] = [([], [accented n])] := rfl
  obtain ⟨hsize, hexcess⟩ := excess_accented hn
  have hmem : blockOf id [] [accented n] ∈ (extractCodeBlocks id (fence ++ 0x0a :: accented n)).blocks := by
    have htaken : ([], [accented n]) ∈ taken ⟨0, 0⟩ [([], [accented n])] := by
      rw [mem_taken_iff]
      refine ⟨[], [], rfl, ?_⟩
      rw [hsize]
      decide
    rw [(extractCodeBlocks_eq id hscans).1, hfences]
    exact List.mem_map_of_mem htaken
  have hlength := hcapped.each _ hmem
  rw [length_encode_blockOf, hsize, hexcess] at hlength
  omega

end Anoryx.Sentinel.CodeBlocks
