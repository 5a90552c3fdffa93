import Mathlib.Data.List.Basic

/-!
# Anoryx.EventRelay

A stream of events that is told on in chunks: first that there is an answer, then its contents, at
last how it ended.

A signal is what an event means for that.  A relay ends at the first signal that halts it or is a
fault, or where there are no more; nothing but a fault leaves the answer without its end
(`completed_relay_iff`).
-/

namespace EventRelay

inductive Signal (C R E : Type)
  | skip
  | start
  | content (c : C)
  | reason (r : R)
  | halt
  | fault (e : E)

inductive Chunk (C R : Type)
  | role
  | content (c : C)
  | finish (r : R)
  | done

variable {C R E : Type}

/-! ## the relay -/

structure State (R : Type) where
  roleSent : Bool
  finishReason : R

def yielding (chunks : List (Chunk C R)) (out : List (Chunk C R) × Option E) : List (Chunk C R) × Option E :=
  (chunks ++ out.1, out.2)

/-- The chunks, and what is raised behind them. -/
def relay (s : State R) : List (Signal C R E) → List (Chunk C R) × Option E
  | [] | .halt :: _ => ([.finish s.finishReason, .done], none)
  | .fault e :: _ => ([], some e)
  | .skip :: sigs => relay s sigs
  | .reason r :: sigs => relay { s with finishReason := r } sigs
  | .start :: sigs =>
      if s.roleSent then relay s sigs
      else yielding [.role] (relay { s with roleSent := true } sigs)
  | .content c :: sigs =>
      if s.roleSent then yielding [.content c] (relay s sigs)
      else yielding [.role, .content c] (relay { s with roleSent := true } sigs)

/-! ## signals -/

def Signal.goesOn : Signal C R E → Bool
  | .halt | .fault _ => false
  | _ => true

def Signal.content? : Signal C R E → Option C
  | .content c => some c
  | _ => none

def Signal.reason? : Signal C R E → Option R
  | .reason r => some r
  | _ => none

/-- The signals before the first that ends the relay -/
def delivered (sigs : List (Signal C R E)) : List (Signal C R E) := sigs.takeWhile Signal.goesOn

def contentsOf (sigs : List (Signal C R E)) : List C := sigs.filterMap Signal.content?

/-- From the signal that ends the relay on -/
def undelivered (sigs : List (Signal C R E)) : List (Signal C R E) := sigs.dropWhile Signal.goesOn

/-- The reason that came last -/
def lastReason (r : R) (sigs : List (Signal C R E)) : R := (sigs.filterMap Signal.reason?).getLast?.getD r

/-- The fault that ends the relay -/
def failure : List (Signal C R E) → Option E
  | [] | .halt :: _ => none
  | .fault e :: _ => some e
  | _ :: sigs => failure sigs

/-- A fault comes before anything halts. -/
def Faulty (sigs : List (Signal C R E)) : Prop :=
  ∃ before e after, sigs = before ++ .fault e :: after ∧ ∀ sig ∈ before, sig.goesOn = true

/-! ## chunks -/

def Chunk.isRole : Chunk C R → Bool
  | .role => true
  | _ => false

/-- The last two chunks -/
def Chunk.isEnd : Chunk C R → Bool
  | .finish _ | .done => true
  | _ => false

def Chunk.content? : Chunk C R → Option C
  | .content c => some c
  | _ => none

def Chunk.reason? : Chunk C R → Option R
  | .finish r => some r
  | _ => none

def contents (chunks : List (Chunk C R)) : List C := chunks.filterMap Chunk.content?

/-- One role at most, and no content without a role before it -/
def RoleFirst (chunks : List (Chunk C R)) : Prop :=
  chunks.countP Chunk.isRole ≤ 1 ∧ ∀ before c after, chunks = before ++ .content c :: after → .role ∈ before

/-- There is one end, and nothing behind it. -/
def Completed (chunks : List (Chunk C R)) : Prop :=
  ∃ told r, chunks = told ++ [.finish r, .done] ∧ ∀ chunk ∈ told, chunk.isEnd = false

/-- What a reader makes of it -/
def answer (out : List (Chunk C R) × Option E) : Except E (List C × Option R) :=
  match out.2 with
  | some e => .error e
  | none => .ok (contents out.1, out.1.findSome? Chunk.reason?)

/-! ## what is told -/

/-- A signal that the role goes before -/
def Signal.speaks : Signal C R E → Bool
  | .start | .content _ => true
  | _ => false

/-- The chunks before the end -/
def told (roleSent : Bool) (sigs : List (Signal C R E)) : List (Chunk C R) :=
  (if !roleSent && sigs.any Signal.speaks then [.role] else []) ++ (contentsOf sigs).map .content

def ending (r : R) : List (Chunk C R) := [.finish r, .done]

@[simp] theorem lastReason_nil (r : R) : lastReason r ([] : List (Signal C R E)) = r := rfl

theorem lastReason_reason (r r' : R) (sigs : List (Signal C R E)) :
    lastReason r (.reason r' :: sigs) = lastReason r' sigs := by
  rw [lastReason, lastReason, List.filterMap_cons, Signal.reason?, List.getLast?_cons]
  rfl

theorem delivered_cons {sig : Signal C R E} (h : sig.goesOn = true) (sigs : List (Signal C R E)) :
    delivered (sig :: sigs) = sig :: delivered sigs :=
  List.takeWhile_cons_of_pos h

theorem failure_cons {sig : Signal C R E} (h : sig.goesOn = true) (sigs : List (Signal C R E)) :
    failure (sig :: sigs) = failure sigs := by
  cases sig with
  | halt => contradiction
  | fault e => contradiction
  | _ => rfl

theorem contentsOf_start (sigs : List (Signal C R E)) : contentsOf (.start :: sigs) = contentsOf sigs := rfl

theorem contentsOf_content (c : C) (sigs : List (Signal C R E)) :
    contentsOf (.content c :: sigs) = c :: contentsOf sigs := rfl

theorem told_start (roleSent : Bool) (sigs : List (Signal C R E)) :
    told roleSent (.start :: sigs) = (if roleSent then [] else [.role]) ++ told true sigs := by
  cases roleSent <;> simp [told, Signal.speaks, contentsOf_start]

theorem told_content (roleSent : Bool) (c : C) (sigs : List (Signal C R E)) :
    told roleSent (.content c :: sigs) = (if roleSent then [] else [.role]) ++ .content c :: told true sigs := by
  cases roleSent <;> simp [told, Signal.speaks, contentsOf_content]

/-- The relay in closed form: what is told of the delivered signals, and the failure or the ending. -/
theorem relay_eq (s : State R) (sigs : List (Signal C R E)) : relay s sigs =
    match failure sigs with
    | some e => (told s.roleSent (delivered sigs), some e)
    | none => (told s.roleSent (delivered sigs) ++ ending (lastReason s.finishReason (delivered sigs)), none) := by
  induction sigs generalizing s with
  | nil => simp [relay, failure, delivered, told, ending, contentsOf]
  | cons sig sigs ih =>
      cases sig with
      | halt => simp [relay, failure, delivered, told, ending, contentsOf, Signal.goesOn]
      | fault e => simp [relay, failure, delivered, told, contentsOf, Signal.goesOn]
      | skip =>
          rw [relay, ih]
          rfl
      | reason r =>
          rw [relay, ih, failure_cons rfl, delivered_cons rfl, lastReason_reason]
          rfl
      | start =>
          rw [relay, ih, ih, failure_cons rfl, delivered_cons rfl, told_start]
          cases s.roleSent <;> cases failure sigs <;> rfl
      | content c =>
          rw [relay, ih, ih, failure_cons rfl, delivered_cons rfl, told_content]
          cases s.roleSent <;> cases failure sigs <;> rfl

/-- A failure leaves what was told before it, without an ending. -/
theorem relay_of_failure {s : State R} {sigs : List (Signal C R E)} {e : E} (h : failure sigs = some e) :
    relay s sigs = (told s.roleSent (delivered sigs), some e) := by
  rw [relay_eq, h]

/-- Without a failure the ending is told last. -/
theorem relay_of_no_failure {s : State R} {sigs : List (Signal C R E)} (h : failure sigs = none) : relay s sigs =
    (told s.roleSent (delivered sigs) ++ ending (lastReason s.finishReason (delivered sigs)), none) := by
  rw [relay_eq, h]

/-! ## laws of a relay -/

variable (s : State R) (sigs : List (Signal C R E))

/-- Telling neither drops nor adds content. -/
theorem contents_told (roleSent : Bool) : contents (told roleSent sigs) = contentsOf sigs := by
  have hmap (cs : List C) : contents (cs.map fun c => (.content c : Chunk C R)) = cs := by
    simp [contents, List.filterMap_map, Function.comp_def, Chunk.content?]
  rw [told, contents, List.filterMap_append, ← contents, ← contents, hmap]
  split <;> rfl

/-- Nothing that is told before the ending ends the stream. -/
theorem not_isEnd_of_mem_told {roleSent : Bool} {chunk : Chunk C R} (h : chunk ∈ told roleSent sigs) :
    chunk.isEnd = false := by
  rw [told, List.mem_append, List.mem_map] at h
  rcases h with h | ⟨c, -, rfl⟩
  · split at h
    · rw [List.mem_singleton] at h
      rw [h]
      rfl
    · simp at h
  · rfl

/-- The contents relayed are those of the delivered signals, in order. -/
theorem contents_relay : contents (relay s sigs).1 = contentsOf (delivered sigs) := by
  cases h : failure sigs with
  | some e => rw [relay_of_failure h, contents_told]
  | none =>
      rw [relay_of_no_failure h, contents, List.filterMap_append, ← contents, contents_told]
      exact List.append_nil _

/-- An ending may follow chunks that start with the role. -/
theorem RoleFirst.append {chunks tail : List (Chunk C R)} (h : RoleFirst chunks)
    (htail : ∀ chunk ∈ tail, chunk.isEnd = true) : RoleFirst (chunks ++ tail) := by
  have hrole : tail.countP Chunk.isRole = 0 := by
    rw [List.countP_eq_zero]
    intro chunk hchunk
    have hend := htail chunk hchunk
    cases chunk <;> simp_all [Chunk.isEnd, Chunk.isRole]
  refine ⟨by rw [List.countP_append, hrole]; exact h.1, ?_⟩
  intro before c after heq
  rcases List.append_eq_append_iff.mp heq with ⟨mid, rfl, hmid⟩ | ⟨mid, rfl, hmid⟩
  · have hend := htail (.content c) (by rw [hmid]; simp)
    contradiction
  · cases mid with
    | nil =>
        have hend := htail (.content c) (by rw [← List.nil_append tail, ← hmid]; exact List.mem_cons_self)
        contradiction
    | cons chunk mid =>
        obtain ⟨rfl, -⟩ := List.cons.inj hmid
        exact h.2 before c mid rfl

/-- The role is told once, and first. -/
theorem roleFirst_told : RoleFirst (told false sigs) := by
  have hcount : ((contentsOf sigs).map fun c => (.content c : Chunk C R)).countP Chunk.isRole = 0 := by
    rw [List.countP_eq_zero, List.forall_mem_map]
    intro c hc
    exact Bool.false_ne_true
  by_cases hspeaks : sigs.any Signal.speaks = true
  · have htold : (told false sigs : List (Chunk C R)) = .role :: (contentsOf sigs).map .content := by
      simp [told, hspeaks]
    rw [htold]
    refine ⟨by simp [List.countP_cons, hcount, Chunk.isRole], ?_⟩
    intro before c after heq
    cases before with
    | nil => simp at heq
    | cons chunk before =>
        obtain ⟨rfl, -⟩ := List.cons.inj heq
        exact List.mem_cons_self
  · have hnone : contentsOf sigs = [] := by
      rw [contentsOf, List.filterMap_eq_nil_iff]
      intro sig hsig
      cases sig with
      | content c => exact absurd (List.any_eq_true.mpr ⟨_, hsig, rfl⟩) hspeaks
      | _ => rfl
    have htold : (told false sigs : List (Chunk C R)) = [] := by simp [told, hspeaks, hnone]
    rw [htold]
    exact ⟨Nat.zero_le 1, fun before c after heq => by simp at heq⟩

/-- A whole relay starts with the role, told once. -/
theorem roleFirst_relay (r : R) : RoleFirst (relay ⟨false, r⟩ sigs).1 := by
  cases h : failure sigs with
  | some e =>
      rw [relay_of_failure h]
      exact roleFirst_told _
  | none =>
      rw [relay_of_no_failure h]
      exact (roleFirst_told _).append (by simp [ending, Chunk.isEnd])

/-- The stream is completed just when nothing failed. -/
theorem completed_relay_iff : Completed (relay s sigs).1 ↔ failure sigs = none := by
  cases h : failure sigs with
  | some e =>
      rw [relay_of_failure h]
      refine iff_of_false ?_ (by simp)
      rintro ⟨chunks, r, heq, -⟩
      have hmem : Chunk.done ∈ chunks ++ [.finish r, .done] := by simp
      have hend := not_isEnd_of_mem_told (delivered sigs) (heq.symm ▸ hmem)
      contradiction
  | none =>
      rw [relay_of_no_failure h]
      exact iff_of_true ⟨_, _, rfl, fun chunk => not_isEnd_of_mem_told _⟩ rfl

/-- The answer put together from the chunks is what the signals say. -/
theorem answer_relay : answer (relay s sigs) =
    match failure sigs with
    | some e => .error e
    | none => .ok (contentsOf (delivered sigs), some (lastReason s.finishReason (delivered sigs))) := by
  cases h : failure sigs with
  | some e => rw [relay_of_failure h, answer]
  | none =>
      have hcontents := contents_relay s sigs
      have hnone : (told s.roleSent (delivered sigs)).findSome? Chunk.reason? = (none : Option R) := by
        rw [List.findSome?_eq_none_iff]
        intro chunk hchunk
        have hend := not_isEnd_of_mem_told _ hchunk
        cases chunk <;> simp_all [Chunk.isEnd, Chunk.reason?]
      rw [relay_of_no_failure h] at hcontents ⊢
      rw [answer, hcontents, List.findSome?_append, hnone]
      rfl

/-! ## a stream in parts -/

variable {s sigs} {rest : List (Signal C R E)}

theorem contentsOf_append (sigs rest : List (Signal C R E)) :
    contentsOf (sigs ++ rest) = contentsOf sigs ++ contentsOf rest :=
  List.filterMap_append

/-- The contents are those delivered and those that come too late. -/
theorem contentsOf_eq_append (sigs : List (Signal C R E)) :
    contentsOf sigs = contentsOf (delivered sigs) ++ contentsOf (undelivered sigs) := by
  rw [← contentsOf_append, delivered, undelivered, List.takeWhile_append_dropWhile]

/-- Signals that go on are all delivered. -/
theorem delivered_append (h : ∀ sig ∈ sigs, sig.goesOn = true) : delivered (sigs ++ rest) = sigs ++ delivered rest :=
  List.takeWhile_append_of_pos h

/-- Signals that go on hold no failure. -/
theorem failure_append (h : ∀ sig ∈ sigs, sig.goesOn = true) : failure (sigs ++ rest) = failure rest := by
  induction sigs with
  | nil => rfl
  | cons sig sigs ih =>
      rw [List.forall_mem_cons] at h
      rw [List.cons_append, failure_cons h.1, ih h.2]

/-- A sequence has no failure just when it is not faulty. -/
theorem failure_eq_none_iff : failure sigs = none ↔ ¬ Faulty sigs := by
  constructor
  · rintro h ⟨before, e, after, rfl, hbefore⟩
    rw [failure_append hbefore] at h
    contradiction
  · intro h
    induction sigs with
    | nil => rfl
    | cons sig sigs ih =>
        cases sig with
        | halt => rfl
        | fault e => exact absurd ⟨[], e, sigs, rfl, by simp⟩ h
        | _ =>
            refine ih fun ⟨before, e, after, heq, hbefore⟩ => h ⟨_ :: before, e, after, congrArg _ heq, ?_⟩
            exact List.forall_mem_cons.mpr ⟨rfl, hbefore⟩

/-- The later reason counts. -/
theorem lastReason_append (r : R) (sigs rest : List (Signal C R E)) :
    lastReason r (sigs ++ rest) = lastReason (lastReason r sigs) rest := by
  rw [lastReason, lastReason, lastReason, List.filterMap_append, List.getLast?_append]
  cases (rest.filterMap Signal.reason?).getLast? <;> rfl

theorem lastReason_of_none (r : R) (h : ∀ sig ∈ sigs, sig.reason? = none) : lastReason r sigs = r := by
  rw [lastReason, List.filterMap_eq_nil_iff.mpr h]
  rfl

/-- If every reason is the same and one is given, it is the last one. -/
theorem lastReason_eq {r r' : R} (h : ∀ sig ∈ sigs, ∀ r'' ∈ sig.reason?, r'' = r')
    (htold : r = r' ∨ ∃ sig ∈ sigs, sig.reason? = some r') : lastReason r sigs = r' := by
  rw [lastReason]
  cases hlast : (sigs.filterMap Signal.reason?).getLast? with
  | none =>
      rw [List.getLast?_eq_none_iff, List.filterMap_eq_nil_iff] at hlast
      rcases htold with rfl | ⟨sig, hsig, htold⟩
      · rfl
      · rw [hlast sig hsig] at htold
        contradiction
  | some r'' =>
      obtain ⟨sig, hsig, hreason⟩ := List.mem_filterMap.mp (List.mem_of_getLast? hlast)
      exact h sig hsig r'' hreason

/-- The answer to signals that go on and then a rest that does not fail. -/
theorem answer_relay_append (h : ∀ sig ∈ sigs, sig.goesOn = true) (hrest : failure rest = none) :
    answer (relay s (sigs ++ rest)) = .ok (contentsOf sigs ++ contentsOf (delivered rest),
      some (lastReason (lastReason s.finishReason sigs) (delivered rest))) := by
  rw [answer_relay, failure_append h, hrest, delivered_append h, contentsOf_append, lastReason_append]

/-- What is skipped at the end changes nothing. -/
theorem relay_append_skips (h : ∀ sig ∈ rest, sig = .skip) : relay s (sigs ++ rest) = relay s sigs := by
  induction sigs generalizing s with
  | nil =>
      induction rest with
      | nil => rfl
      | cons sig rest ih =>
          rw [List.forall_mem_cons] at h
          rw [List.nil_append, h.1, relay]
          exact ih h.2
  | cons sig sigs ih =>
      rw [List.cons_append]
      cases sig <;> simp only [relay, ih]

theorem contentsOf_map {α : Type} {g : α → Signal C R E} {f : α → Option C} {p : C → Bool}
    (h : ∀ x, (g x).content? = (f x).filter p) (xs : List α) : contentsOf (xs.map g) = (xs.filterMap f).filter p := by
  rw [contentsOf, List.filterMap_map, List.filter_filterMap]
  exact congrArg (List.filterMap · xs) (funext h)

/-- Events that are no signal can be left out beforehand. -/
theorem relay_filterMap {α β : Type} (f : α → Option β) (g : β → Signal C R E) (xs : List α) :
    relay s (xs.map (fun x => (f x).elim .skip g) ++ rest) = relay s ((xs.filterMap f).map g ++ rest) := by
  induction xs generalizing s with
  | nil => rfl
  | cons x xs ih =>
      cases hx : f x with
      | none =>
          rw [List.filterMap_cons_none hx, ← ih, List.map_cons, hx]
          rfl
      | some b =>
          rw [List.filterMap_cons_some hx, List.map_cons, List.map_cons, hx, Option.elim_some, List.cons_append,
            List.cons_append]
          cases g b <;> simp only [relay, ih]

end EventRelay
