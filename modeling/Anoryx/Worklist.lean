import Mathlib

/-!
# Anoryx.Worklist

Breadth-first search with a list of visited vertices and a queue.

`search` is the loop, cut off after a number of rounds; `none` is the cut.  The loop
keeps `Frontier`: what was visited is what was expanded followed by the queue, all of it
reachable, and no expanded vertex has a successor outside.  So its answer is right
(`search_sound`), and it is not cut off before every reachable vertex has had its round
(`search_isSome`).
-/

namespace Worklist

variable {V : Type} [DecidableEq V]

/-- Marks the vertices that are new, and queues them. -/
def extend (visited queue : List V) : List V → List V × List V
  | [] => (visited, queue)
  | v :: vs =>
      if v ∈ visited then extend visited queue vs else extend (visited ++ [v]) (queue ++ [v]) vs

/-- Looks for `goal`, one vertex of the queue a round. -/
def search (next : V → List V) (goal : V) : Nat → List V → List V → Option Bool
  | 0, _, _ => none
  | _ + 1, _, [] => some false
  | fuel + 1, visited, node :: queue =>
      if node = goal then some true
      else
        let found := extend visited queue (next node)
        search next goal fuel found.1 found.2

/-- One step along an edge. -/
def Adjacent (next : V → List V) (v w : V) : Prop := w ∈ next v

/-- A path of any length. -/
abbrev Reaches (next : V → List V) : V → V → Prop := Relation.ReflTransGen (Adjacent next)

theorem extend_eq (visited queue vs : List V) (hnodup : visited.Nodup) :
    ∃ new, extend visited queue vs = (visited ++ new, queue ++ new) ∧ (visited ++ new).Nodup ∧
      (∀ v ∈ new, v ∈ vs) ∧ ∀ v ∈ vs, v ∈ visited ++ new := by
  induction vs generalizing visited queue with
  | nil => exact ⟨[], by simp [extend, hnodup]⟩
  | cons v vs ih =>
      by_cases hv : v ∈ visited
      · obtain ⟨new, heq, hnew, hsub, hall⟩ := ih visited queue hnodup
        refine ⟨new, by simp [extend, hv, heq], hnew, fun w hw => List.mem_cons_of_mem v (hsub w hw), ?_⟩
        grind
      · have hnodup' : (visited ++ [v]).Nodup := by
          rw [List.nodup_append]
          grind
        obtain ⟨new, heq, hnew, hsub, hall⟩ := ih (visited ++ [v]) (queue ++ [v]) hnodup'
        refine ⟨v :: new, by simp [extend, hv, heq], by simpa using hnew, ?_, ?_⟩
        · grind
        · grind

/-! ## the invariant -/

/-- The state of the loop, with the vertices expanded so far. -/
structure Frontier (next : V → List V) (start goal : V) (expanded visited queue : List V) : Prop where
  split : visited = expanded ++ queue
  nodup : visited.Nodup
  started : start ∈ visited
  reached : ∀ v ∈ visited, Reaches next start v
  closed : ∀ v ∈ expanded, ∀ w ∈ next v, w ∈ visited
  missed : goal ∉ expanded

variable {next : V → List V} {start goal : V} {expanded visited queue : List V}

omit [DecidableEq V] in
theorem frontier_start (next : V → List V) (start goal : V) :
    Frontier next start goal [] [start] [start] where
  split := rfl
  nodup := List.nodup_singleton start
  started := List.mem_singleton_self start
  reached v hv := by
    rw [List.mem_singleton.mp hv]
  closed v hv := absurd hv List.not_mem_nil
  missed := List.not_mem_nil

/-- One node is expanded. -/
theorem Frontier.expand {node : V} (h : Frontier next start goal expanded visited (node :: queue))
    (hne : node ≠ goal) :
    Frontier next start goal (expanded ++ [node]) (extend visited queue (next node)).1
      (extend visited queue (next node)).2 := by
  obtain ⟨new, heq, hnodup, hsub, hall⟩ := extend_eq visited queue (next node) h.nodup
  have hnode : node ∈ visited := by
    rw [h.split]
    simp
  rw [heq]
  refine ⟨by simp [h.split], hnodup, List.mem_append_left _ h.started, fun v hv => ?_,
    fun v hv w hw => ?_, ?_⟩
  · rcases List.mem_append.mp hv with hv | hv
    · exact h.reached v hv
    · exact (h.reached node hnode).tail (hsub v hv)
  · rcases List.mem_append.mp hv with hv | hv
    · exact List.mem_append_left _ (h.closed v hv w hw)
    · rw [List.mem_singleton.mp hv] at hw
      exact hall w hw
  · have hmissed := h.missed
    grind

omit [DecidableEq V] in
theorem Frontier.reaches_mem (h : Frontier next start goal expanded visited []) {v : V}
    (hv : Reaches next start v) : v ∈ expanded := by
  have hall : visited = expanded := by rw [h.split, List.append_nil]
  induction hv with
  | refl => exact hall ▸ h.started
  | tail _ hstep ih => exact hall ▸ h.closed _ ih _ hstep

variable {fuel : Nat} {vertices : List V}

/-- The search answers whether the goal can be reached. -/
theorem Frontier.search_sound (h : Frontier next start goal expanded visited queue) {b : Bool}
    (hb : search next goal fuel visited queue = some b) : b = true ↔ Reaches next start goal := by
  induction fuel generalizing expanded visited queue with
  | zero => contradiction
  | succ fuel ih =>
      cases queue with
      | nil =>
          obtain rfl : false = b := Option.some.inj hb
          simp only [Bool.false_eq_true, false_iff]
          exact fun hreach => h.missed (h.reaches_mem hreach)
      | cons node queue =>
          by_cases hgoal : node = goal
          · subst hgoal
            simp only [search, if_true, Option.some.injEq] at hb
            have hmem : node ∈ visited := by simp [h.split]
            exact ⟨fun _ => h.reached node hmem, fun _ => hb.symm⟩
          · simp only [search, hgoal, if_false] at hb
            exact ih (h.expand hgoal) hb

/-- With fuel for every vertex the search ends. -/
theorem Frontier.search_isSome (h : Frontier next start goal expanded visited queue)
    (hvertices : ∀ v, Reaches next start v → v ∈ vertices)
    (hfuel : vertices.length < fuel + expanded.length) :
    (search next goal fuel visited queue).isSome = true := by
  induction fuel generalizing expanded visited queue with
  | zero =>
      have hexpanded : expanded.Nodup := (List.nodup_append.mp (h.split ▸ h.nodup)).1
      have hlen : expanded.length ≤ vertices.length :=
        (hexpanded.subperm fun v hv => hvertices v (h.reached v (by simp [h.split, hv]))).length_le
      omega
  | succ fuel ih =>
      cases queue with
      | nil => rfl
      | cons node queue =>
          by_cases hgoal : node = goal
          · simp [search, hgoal]
          · simp only [search, hgoal, if_false]
            refine ih (h.expand hgoal) ?_
            rw [List.length_append, List.length_singleton]
            omega

/-- **The search answers, and answers right**, once it has a round for each vertex it can
reach and one more. -/
theorem search_correct (hvertices : ∀ v, Reaches next start v → v ∈ vertices)
    (hfuel : vertices.length < fuel) :
    ∃ b, search next goal fuel [start] [start] = some b ∧ (b = true ↔ Reaches next start goal) := by
  have hstart := frontier_start next start goal
  obtain ⟨b, hb⟩ := Option.isSome_iff_exists.mp (hstart.search_isSome hvertices (by simpa using hfuel))
  exact ⟨b, hb, hstart.search_sound hb⟩

/-! ## one edge more -/

section OneEdge

variable {W : Type} {r : W → W → Prop} {a b : W}

/-- No path leads back. -/
def Acyclic (r : W → W → Prop) : Prop := ∀ v, ¬ Relation.TransGen r v v

/-- The relation with one edge more. -/
def WithEdge (r : W → W → Prop) (a b : W) (v w : W) : Prop := r v w ∨ (v = a ∧ w = b)

theorem reaches_withEdge {v : W} :
    Relation.ReflTransGen (WithEdge r a b) b v ↔ Relation.ReflTransGen r b v := by
  constructor
  · intro h
    induction h with
    | refl => exact .refl
    | tail _ hstep ih =>
        rcases hstep with hstep | ⟨-, rfl⟩
        · exact ih.tail hstep
        · exact .refl
  · intro h
    have hle : r ≤ WithEdge r a b := fun _ _ => Or.inl
    exact Relation.ReflTransGen.mono hle _ _ h

theorem transGen_withEdge {v w : W} (h : Relation.TransGen (WithEdge r a b) v w) :
    Relation.TransGen r v w ∨ (Relation.ReflTransGen r v a ∧ Relation.ReflTransGen r b w) := by
  induction h with
  | single hstep =>
      rcases hstep with hstep | ⟨rfl, rfl⟩
      · exact .inl (.single hstep)
      · exact .inr ⟨.refl, .refl⟩
  | tail _ hstep ih =>
      rcases hstep with hstep | ⟨rfl, rfl⟩
      · rcases ih with ih | ⟨hva, hbw⟩
        · exact .inl (ih.tail hstep)
        · exact .inr ⟨hva, hbw.tail hstep⟩
      · rcases ih with ih | ⟨hva, -⟩
        · exact .inr ⟨ih.to_reflTransGen, .refl⟩
        · exact .inr ⟨hva, .refl⟩

/-- **A new edge closes a cycle** just if its tail was reachable from its head. -/
theorem acyclic_withEdge (h : Acyclic r) :
    Acyclic (WithEdge r a b) ↔ ¬ Relation.ReflTransGen r b a := by
  constructor
  · intro hnew hback
    have hnew_edge : WithEdge r a b a b := .inr ⟨rfl, rfl⟩
    exact hnew a (Relation.TransGen.head' hnew_edge (reaches_withEdge.mpr hback))
  · intro hback v hv
    rcases transGen_withEdge hv with hold | ⟨hva, hbv⟩
    · exact h v hold
    · exact hback (hbv.trans hva)

theorem Acyclic.mono {s : W → W → Prop} (h : Acyclic s) (hle : ∀ v w, r v w → s v w) : Acyclic r :=
  fun v hv => h v (Relation.TransGen.mono hle _ _ hv)

end OneEdge

end Worklist
