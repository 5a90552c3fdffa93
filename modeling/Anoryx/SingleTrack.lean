import Anoryx.Raising

/-!
# Anoryx.SingleTrack

Agendas with one track: windows `[start, stop)` over a linear order, of which no two overlap.

An entry is taken if the agenda has room and the entry overlaps none of the others
(`scheduleOn_eq_ok`).  So the windows of an agenda are pairwise disjoint (`Agenda.append`), and an
instant splits them into those that are over, at most one that it is in, and those that are
ahead (`Agenda.partition`).
-/

namespace SingleTrack

open Raising

variable {τ α κ E : Type} [LinearOrder τ]

/-! ## windows -/

/-- A half-open window, not empty -/
@[ext]
structure Window (τ : Type) [LinearOrder τ] where
  start : τ
  stop : τ
  start_lt : start < stop

namespace Window

def instants (w : Window τ) : Set τ := Set.Ico w.start w.stop

/-- The test on the ends of two windows -/
def overlaps (w w' : Window τ) : Bool := w.start < w'.stop ∧ w'.start < w.stop

theorem start_mem (w : Window τ) : w.start ∈ w.instants := ⟨le_rfl, w.start_lt⟩

theorem overlaps_eq_false {w w' : Window τ} : w.overlaps w' = false ↔ Disjoint w.instants w'.instants := by
  have hw := w.start_lt
  have hw' := w'.start_lt
  rw [instants, instants, Set.Ico_disjoint_Ico, min_le_iff, le_max_iff, le_max_iff]
  simp only [overlaps, decide_eq_false_iff_not, not_and, not_lt]
  grind

end Window

/-! ## scheduling -/

/-- A bound on the entries that are there, a check of each of them, a candidate and a check
against each of them -/
def scheduleOn (cap : Nat) (full : E) (own : α → Except E Unit) (overlap : E) (window : α → Window τ)
    (existing : List α) (candidate : Except E α) : Except E α := do
  raiseIf (existing.length ≥ cap) full
  existing.forM own
  let entry ← candidate
  existing.forM fun e => raiseIf ((window entry).overlaps (window e)) overlap
  return entry

variable {cap : Nat} {full overlap : E} {own : α → Except E Unit} {window : α → Window τ} {existing : List α}
  {candidate : Except E α} {entry : α}

theorem scheduleOn_eq_ok : scheduleOn cap full own overlap window existing candidate = .ok entry ↔
    existing.length < cap ∧ (∀ e ∈ existing, own e = .ok ()) ∧ candidate = .ok entry ∧
      ∀ e ∈ existing, Disjoint (window entry).instants (window e).instants := by
  unfold scheduleOn
  rw [check_bind_eq_ok, check_bind_eq_ok, bind_eq_ok]
  simp only [check_bind_eq_ok, forM_eq_ok, raiseIf_eq_ok, not_le, Bool.not_eq_true, Window.overlaps_eq_false]
  constructor
  · rintro ⟨hroom, hown, e, he, hdisjoint, hentry⟩
    obtain rfl := Except.ok.inj hentry
    exact ⟨hroom, hown, he, hdisjoint⟩
  · rintro ⟨hroom, hown, he, hdisjoint⟩
    exact ⟨hroom, hown, entry, he, hdisjoint, rfl⟩

/-- A call, and its result appended unless it raised -/
def keep (schedule : List α → κ → Except E α) (agenda : List α) (call : κ) : List α :=
  match schedule agenda call with
  | .ok entry => agenda ++ [entry]
  | .error _ => agenda

def agendaAfter (schedule : List α → κ → Except E α) (calls : List κ) : List α := calls.foldl (keep schedule) []

/-- What every accepted call keeps holds of the agenda after any calls. -/
theorem agendaAfter_induction (schedule : List α → κ → Except E α) (inv : List α → Prop) (hnil : inv [])
    (hstep : ∀ agenda call entry, inv agenda → schedule agenda call = .ok entry → inv (agenda ++ [entry]))
    (calls : List κ) : inv (agendaAfter schedule calls) := by
  induction calls using List.reverseRecOn with
  | nil => exact hnil
  | append_singleton calls call ih =>
      unfold agendaAfter at ih ⊢
      rw [List.foldl_append, List.foldl_cons, List.foldl_nil, keep]
      cases hcall : schedule (calls.foldl (keep schedule) []) call with
      | error _ => exact ih
      | ok entry => exact hstep _ _ _ ih hcall

/-! ## agendas -/

/-- No two windows have an instant in common. -/
def Agenda (window : α → Window τ) (entries : List α) : Prop :=
  entries.Pairwise fun e e' => Disjoint (window e).instants (window e').instants

namespace Agenda

variable {entries entries' : List α} {e e' : α} {t : τ}

theorem append (h : Agenda window entries) (hentry : ∀ e ∈ entries, Disjoint (window entry).instants (window e).instants) :
    Agenda window (entries ++ [entry]) := by
  refine List.pairwise_append.mpr ⟨h, by simp, ?_⟩
  intro e he e' he'
  rw [List.mem_singleton.mp he']
  exact (hentry e he).symm

theorem perm (h : Agenda window entries) (hperm : entries.Perm entries') : Agenda window entries' :=
  hperm.pairwise h fun h => h.symm

theorem eq_of_mem (h : Agenda window entries) (he : e ∈ entries) (he' : e' ∈ entries)
    (ht : t ∈ (window e).instants) (ht' : t ∈ (window e').instants) : e = e' := by
  by_contra hne
  have : Std.Symm fun e e' => Disjoint (window e).instants (window e').instants := ⟨fun _ _ h => h.symm⟩
  exact Set.disjoint_left.mp (List.Pairwise.forall h he he' hne) ht ht'

theorem nodup (h : Agenda window entries) : entries.Nodup := by
  refine List.Pairwise.imp_of_mem ?_ h
  rintro e _ _ _ hdisjoint rfl
  exact Set.disjoint_left.mp hdisjoint (window e).start_mem (window e).start_mem

theorem eq_of_start (h : Agenda window entries) (he : e ∈ entries) (he' : e' ∈ entries)
    (hstart : (window e).start = (window e').start) : e = e' :=
  h.eq_of_mem he he' (window e).start_mem (hstart ▸ (window e').start_mem)

/-- At an instant at most one entry is current. -/
theorem length_current_le (h : Agenda window entries) (t : τ) :
    (entries.filter fun e => (window e).start ≤ t ∧ t < (window e).stop).length ≤ 1 := by
  have hnodup := h.nodup.filter fun e => decide ((window e).start ≤ t ∧ t < (window e).stop)
  have hmem (e : α) (he : e ∈ entries.filter fun e => (window e).start ≤ t ∧ t < (window e).stop) :
      e ∈ entries ∧ t ∈ (window e).instants := by
    simpa [Window.instants] using he
  rcases hcurrent : entries.filter (fun e => (window e).start ≤ t ∧ t < (window e).stop) with _ | ⟨e, _ | ⟨e', rest⟩⟩
  · simp
  · simp
  · rw [hcurrent] at hnodup hmem
    obtain ⟨he, ht⟩ := hmem e (by simp)
    obtain ⟨he', ht'⟩ := hmem e' (by simp)
    simp [h.eq_of_mem he he' ht ht'] at hnodup

/-- Past, current and coming entries are all there are. -/
theorem partition (entries : List α) (window : α → Window τ) (t : τ) :
    (entries.filter fun e => (window e).stop ≤ t).length +
      (entries.filter fun e => (window e).start ≤ t ∧ t < (window e).stop).length +
      (entries.filter fun e => t < (window e).start).length = entries.length := by
  induction entries with
  | nil => rfl
  | cons e rest ih =>
      have hwindow := (window e).start_lt
      rw [List.length_cons, ← ih]
      rcases lt_trichotomy t (window e).start with ht | ht | ht
      · simp [ht, ht.not_ge, (ht.trans hwindow).not_ge]
        omega
      · simp [ht, hwindow, hwindow.not_ge]
        omega
      · by_cases hstop : (window e).stop ≤ t
        · simp [hstop, ht.le, ht.not_gt]
          omega
        · simp [hstop, ht.le, ht.not_gt, not_le.mp hstop]
          omega

end Agenda

/-! ## the track -/

/-- What holds of a scheduler after some calls: of a call, its arguments may be fine, and it asks for a window. -/
structure Track (schedule : List α → κ → Except E α) (window : α → Window τ) (cap : Nat) (fine : κ → Prop)
    (asked : κ → Option (Window τ)) (calls : List κ) : Prop where
  disjoint : Agenda window (agendaAfter schedule calls)
  bounded : (agendaAfter schedule calls).length ≤ cap
  one : ∀ t, ((agendaAfter schedule calls).filter fun e => (window e).start ≤ t ∧ t < (window e).stop).length ≤ 1
  accepts : ∀ call, (∃ e, schedule (agendaAfter schedule calls) call = .ok e) ↔
    fine call ∧ (agendaAfter schedule calls).length < cap ∧
      ∃ w, asked call = some w ∧ ∀ e ∈ agendaAfter schedule calls, Disjoint w.instants (window e).instants

variable {candidate : κ → Except E α}

variable (cap full overlap window) in
theorem agendaAfter_scheduleOn (hown : ∀ call e, candidate call = .ok e → own e = .ok ()) (calls : List κ) :
    let agenda :=
      agendaAfter (fun existing call => scheduleOn cap full own overlap window existing (candidate call)) calls
    Agenda window agenda ∧ agenda.length ≤ cap ∧ ∀ e ∈ agenda, own e = .ok () := by
  refine agendaAfter_induction
    (fun existing call => scheduleOn cap full own overlap window existing (candidate call))
    (fun agenda => Agenda window agenda ∧ agenda.length ≤ cap ∧ ∀ e ∈ agenda, own e = .ok ())
    ⟨List.Pairwise.nil, by simp, by simp⟩ ?_ calls
  rintro agenda call entry ⟨hagenda, -, howned⟩ hcall
  obtain ⟨hroom, -, hentry, hdisjoint⟩ := scheduleOn_eq_ok.mp hcall
  refine ⟨hagenda.append hdisjoint, by simpa using hroom, fun e he => ?_⟩
  rcases List.mem_append.mp he with he | he
  · exact howned e he
  · exact List.mem_singleton.mp he ▸ hown call entry hentry

/-- A schedule that checks overlap and the cap keeps to a single track. -/
theorem track_of_scheduleOn {fine : κ → Prop} {asked : κ → Option (Window τ)}
    (hown : ∀ call e, candidate call = .ok e → own e = .ok ())
    (hcandidate : ∀ call w, (∃ e, candidate call = .ok e ∧ window e = w) ↔ fine call ∧ asked call = some w)
    (calls : List κ) :
    Track (fun existing call => scheduleOn cap full own overlap window existing (candidate call)) window cap fine asked
      calls := by
  obtain ⟨hagenda, hbounded, howned⟩ := agendaAfter_scheduleOn cap full overlap window hown calls
  refine ⟨hagenda, hbounded, fun t => hagenda.length_current_le t, fun call => ?_⟩
  simp only [scheduleOn_eq_ok]
  constructor
  · rintro ⟨entry, hroom, -, hentry, hdisjoint⟩
    obtain ⟨hfine, hasked⟩ := (hcandidate call (window entry)).mp ⟨entry, hentry, rfl⟩
    exact ⟨hfine, hroom, window entry, hasked, hdisjoint⟩
  · rintro ⟨hfine, hroom, w, hasked, hdisjoint⟩
    obtain ⟨entry, hentry, rfl⟩ := (hcandidate call w).mpr ⟨hfine, hasked⟩
    exact ⟨entry, hroom, howned, hentry, hdisjoint⟩

end SingleTrack
