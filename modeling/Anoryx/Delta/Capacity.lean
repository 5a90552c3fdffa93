import Mathlib

/-!
# Anoryx.Delta.Capacity

The rebalance suggestion of Delta's team capacity (`capacity/service.py`):
`_greedy_rebalance` moves the largest tasks of the teams that are over their capacity to
the team that has the most room left.

The loop keeps two numbers besides its moves, the excess of the team at hand and the
spare room of the others.  They are the load of the teams after the moves so far
(`Tracks`, `Excess`), and so every move goes from a team that is still over its capacity
to one that is still under it (`Sound`).  What a move does to the total overload follows
from that alone (`totalOverload_applyMoves`): it takes off what is left of the excess,
and adds what the task has beyond the room.

The ids of the teams of a report differ, for its query groups by them; a task has story
points above zero.
-/

namespace Anoryx.Delta.Capacity

structure TeamSnapshot where
  teamId : String
  name : String
  capacity : Int
  remaining : Int
deriving DecidableEq

structure MovableTask where
  taskId : String
  title : String
  storyPoints : Nat
  teamId : String
deriving DecidableEq

structure RebalanceMove where
  taskId : String
  title : String
  storyPoints : Nat
  fromTeamId : String
  fromTeamName : String
  toTeamId : String
  toTeamName : String
deriving DecidableEq

def RebalanceMove.task (m : RebalanceMove) : MovableTask where
  taskId := m.taskId
  title := m.title
  storyPoints := m.storyPoints
  teamId := m.fromTeamId

/-! ## the algorithm -/

/-- `sorted(..., key=..., reverse=True)`: the greatest first, and equal ones as they were. -/
def sortedDescending {α : Type} (key : α → Int) (l : List α) : List α :=
  l.insertionSort fun a b => key b ≤ key a

/-- `max(candidates, key=...)`: the first of the greatest. -/
def mostSpare : List (String × Int) → Option (String × Int)
  | [] => none
  | c :: cs => some (cs.foldl (fun best c => if best.2 < c.2 then c else best) c)

/-- `spare[target_id] -= points` -/
def spend (target : String) (points : Nat) (spare : List (String × Int)) : List (String × Int) :=
  spare.map fun entry => if entry.1 = target then (entry.1, entry.2 - points) else entry

/-- `by_id[team_id].name` -/
def nameOf (teams : List TeamSnapshot) (teamId : String) : String :=
  ((teams.find? fun t => t.teamId = teamId).map TeamSnapshot.name).getD ""

/-- `tasks_by_team.get(team_id, [])`, the largest task first. -/
def tasksOf (movableTasks : List MovableTask) (teamId : String) : List MovableTask :=
  sortedDescending (fun task => task.storyPoints) (movableTasks.filter fun task => task.teamId = teamId)

/-- The moves from one team: the loop over its tasks. -/
def moveTasks (teams : List TeamSnapshot) (overTeam : TeamSnapshot) :
    List MovableTask → Int → List (String × Int) → List RebalanceMove × List (String × Int)
  | [], _, spare => ([], spare)
  | task :: tasks, excess, spare =>
      if excess ≤ 0 then ([], spare)
      else
        match mostSpare (spare.filter fun entry => 0 < entry.2) with
        | none => ([], spare)
        | some (targetId, _) =>
            let rest := moveTasks teams overTeam tasks (excess - task.storyPoints)
              (spend targetId task.storyPoints spare)
            (⟨task.taskId, task.title, task.storyPoints, overTeam.teamId, overTeam.name, targetId,
              nameOf teams targetId⟩ :: rest.1, rest.2)

/-- The loop over the teams. -/
def moveTeams (teams : List TeamSnapshot) (movableTasks : List MovableTask) :
    List TeamSnapshot → List (String × Int) → List RebalanceMove
  | [], _ => []
  | overTeam :: overTeams, spare =>
      let first := moveTasks teams overTeam (tasksOf movableTasks overTeam.teamId)
        (overTeam.remaining - overTeam.capacity) spare
      first.1 ++ moveTeams teams movableTasks overTeams first.2

/-- The teams over their capacity, the most overloaded first. -/
def overTeams (teams : List TeamSnapshot) : List TeamSnapshot :=
  sortedDescending (fun t => t.remaining - t.capacity) (teams.filter fun t => t.capacity < t.remaining)

/-- The room of the teams under their capacity. -/
def spareOf (teams : List TeamSnapshot) : List (String × Int) :=
  (teams.filter fun t => t.remaining < t.capacity).map fun t => (t.teamId, t.capacity - t.remaining)

def greedyRebalance (teamsSnapshot : List TeamSnapshot) (movableTasks : List MovableTask) :
    List RebalanceMove :=
  moveTeams teamsSnapshot movableTasks (overTeams teamsSnapshot) (spareOf teamsSnapshot)

/-! ## what the moves do -/

/-- What a team has beyond its capacity. -/
def TeamSnapshot.overload (t : TeamSnapshot) : Int := max 0 (t.remaining - t.capacity)

def totalOverload (teams : List TeamSnapshot) : Int := (teams.map TeamSnapshot.overload).sum

/-- A team after a move. -/
def TeamSnapshot.applyMove (m : RebalanceMove) (t : TeamSnapshot) : TeamSnapshot :=
  { t with
    remaining := t.remaining - (if t.teamId = m.fromTeamId then (m.storyPoints : Int) else 0) +
      if t.teamId = m.toTeamId then (m.storyPoints : Int) else 0 }

def applyMove (teams : List TeamSnapshot) (m : RebalanceMove) : List TeamSnapshot :=
  teams.map (TeamSnapshot.applyMove m)

/-- The teams after the moves. -/
def applyMoves (teams : List TeamSnapshot) (moves : List RebalanceMove) : List TeamSnapshot :=
  moves.foldl applyMove teams

/-- What is left of a team's capacity; below zero it is over it. -/
def room (teams : List TeamSnapshot) (teamId : String) : Int :=
  ((teams.find? fun t => t.teamId = teamId).map fun t => t.capacity - t.remaining).getD 0

/-- Each move is from a team over its capacity to one under it, after the moves before. -/
def Sound (teams : List TeamSnapshot) : List RebalanceMove → Prop
  | [] => True
  | m :: moves =>
      m.fromTeamId ∈ teams.map TeamSnapshot.teamId ∧ m.toTeamId ∈ teams.map TeamSnapshot.teamId ∧
        room teams m.fromTeamId < 0 ∧ 0 < room teams m.toTeamId ∧ Sound (applyMove teams m) moves

/-- What the moves take off the teams they go from. -/
def relieved (teams : List TeamSnapshot) : List RebalanceMove → Int
  | [] => 0
  | m :: moves => min (m.storyPoints : Int) (-room teams m.fromTeamId) + relieved (applyMove teams m) moves

/-- What the moves add beyond the room of the teams they go to. -/
def overfilled (teams : List TeamSnapshot) : List RebalanceMove → Int
  | [] => 0
  | m :: moves => max 0 (m.storyPoints - room teams m.toTeamId) + overfilled (applyMove teams m) moves

/-- No task is larger than the excess that its team has left and the room where it goes
together. -/
def Fits (teams : List TeamSnapshot) : List RebalanceMove → Prop
  | [] => True
  | m :: moves =>
      (m.storyPoints : Int) ≤ -room teams m.fromTeamId + room teams m.toTeamId ∧
        Fits (applyMove teams m) moves

variable {t : TeamSnapshot} {teamId : String}

section Load

variable {teams : List TeamSnapshot} {m : RebalanceMove} {moves moves' : List RebalanceMove} {teamId : String}

@[simp] theorem teamIds_applyMove (teams : List TeamSnapshot) (m : RebalanceMove) :
    (applyMove teams m).map TeamSnapshot.teamId = teams.map TeamSnapshot.teamId := by
  simp [applyMove, TeamSnapshot.applyMove]

@[simp] theorem teamIds_applyMoves (teams : List TeamSnapshot) (moves : List RebalanceMove) :
    (applyMoves teams moves).map TeamSnapshot.teamId = teams.map TeamSnapshot.teamId := by
  induction moves generalizing teams with
  | nil => rfl
  | cons m moves ih => rw [applyMoves, List.foldl_cons, ← applyMoves, ih, teamIds_applyMove]

theorem applyMoves_cons : applyMoves teams (m :: moves) = applyMoves (applyMove teams m) moves := rfl

theorem room_eq (hids : (teams.map TeamSnapshot.teamId).Nodup) (ht : t ∈ teams) :
    room teams t.teamId = t.capacity - t.remaining := by
  induction teams with
  | nil => simp at ht
  | cons u teams ih =>
      simp only [List.map_cons, List.nodup_cons, List.mem_map, not_exists, not_and] at hids
      rcases List.mem_cons.mp ht with rfl | ht
      · simp [room]
      · have hne : u.teamId ≠ t.teamId := fun he => hids.1 t ht he.symm
        simpa [room, hne] using ih hids.2 ht

theorem room_applyMove (hid : teamId ∈ teams.map TeamSnapshot.teamId) :
    room (applyMove teams m) teamId =
      room teams teamId + (if teamId = m.fromTeamId then (m.storyPoints : Int) else 0) -
        if teamId = m.toTeamId then (m.storyPoints : Int) else 0 := by
  obtain ⟨t, ht, rfl⟩ := List.mem_map.mp hid
  obtain ⟨u, hu⟩ := Option.isSome_iff_exists.mp
    (List.find?_isSome.mpr ⟨t, ht, decide_eq_true rfl⟩ : (teams.find? fun u => u.teamId = t.teamId).isSome)
  have hname : u.teamId = t.teamId := by simpa using List.find?_some hu
  have hafter : (applyMove teams m).find? (fun u => u.teamId = t.teamId) = some (u.applyMove m) := by
    rw [applyMove, List.find?_map]
    exact congrArg (Option.map (TeamSnapshot.applyMove m)) hu
  simp only [room, hu, hafter, Option.map_some, Option.getD_some, TeamSnapshot.applyMove, hname]
  ring

theorem sum_teamId (hids : (teams.map TeamSnapshot.teamId).Nodup) (hid : teamId ∈ teams.map TeamSnapshot.teamId)
    (a : Int) : (teams.map fun t => if t.teamId = teamId then a else 0).sum = a := by
  induction teams with
  | nil => simp at hid
  | cons u teams ih =>
      simp only [List.map_cons, List.nodup_cons, List.mem_cons] at hids hid ⊢
      rw [List.sum_cons]
      rcases hid with rfl | hid
      · have hrest : (teams.map fun t => if t.teamId = u.teamId then a else 0) = teams.map fun _ => 0 :=
          List.map_congr_left fun t ht => if_neg fun he => hids.1 (List.mem_map.mpr ⟨t, ht, he⟩)
        simp [hrest]
      · have hne : u.teamId ≠ teamId := fun he => hids.1 (he ▸ hid)
        rw [ih hids.2 hid, if_neg hne, zero_add]

/-- **One move**: it takes off the excess of one team, and adds to another what the task
has beyond its room. -/
theorem totalOverload_applyMove (hids : (teams.map TeamSnapshot.teamId).Nodup)
    (hfrom : m.fromTeamId ∈ teams.map TeamSnapshot.teamId) (hto : m.toTeamId ∈ teams.map TeamSnapshot.teamId)
    (hover : room teams m.fromTeamId < 0) (hunder : 0 < room teams m.toTeamId) :
    totalOverload (applyMove teams m) + min (m.storyPoints : Int) (-room teams m.fromTeamId) =
      totalOverload teams + max 0 (m.storyPoints - room teams m.toTeamId) := by
  have hne : m.fromTeamId ≠ m.toTeamId := by grind
  have hterm : ∀ t ∈ teams, (t.applyMove m).overload =
      t.overload + ((if t.teamId = m.fromTeamId then -min (m.storyPoints : Int) (-room teams m.fromTeamId) else 0) +
        if t.teamId = m.toTeamId then max 0 (m.storyPoints - room teams m.toTeamId) else 0) := by
    intro t ht
    have hroom := room_eq hids ht
    simp only [TeamSnapshot.overload, TeamSnapshot.applyMove]
    by_cases h : t.teamId = m.fromTeamId
    · have h' : t.teamId ≠ m.toTeamId := h ▸ hne
      rw [if_pos h, if_neg h', if_pos h, if_neg h']
      grind
    · by_cases h' : t.teamId = m.toTeamId
      · rw [if_neg h, if_pos h', if_neg h, if_pos h']
        grind
      · simp [h, h']
  have hsum := congrArg List.sum (List.map_congr_left hterm)
  rw [List.sum_map_add, List.sum_map_add, sum_teamId hids hfrom, sum_teamId hids hto] at hsum
  simp only [totalOverload, applyMove, List.map_map, Function.comp_def]
  grind

/-- **Every run of moves**, as long as they go from over to under. -/
theorem totalOverload_applyMoves (hids : (teams.map TeamSnapshot.teamId).Nodup) (h : Sound teams moves) :
    totalOverload (applyMoves teams moves) + relieved teams moves =
      totalOverload teams + overfilled teams moves := by
  induction moves generalizing teams with
  | nil => simp [applyMoves, relieved, overfilled]
  | cons m moves ih =>
      obtain ⟨hfrom, hto, hover, hunder, hrest⟩ := h
      have hmove := totalOverload_applyMove hids hfrom hto hover hunder
      have hmoves := ih (by rwa [teamIds_applyMove]) hrest
      rw [applyMoves_cons, relieved, overfilled]
      omega

theorem overfilled_le_relieved (h : Sound teams moves) (hfits : Fits teams moves) :
    overfilled teams moves ≤ relieved teams moves := by
  induction moves generalizing teams with
  | nil => exact le_refl 0
  | cons m moves ih =>
      obtain ⟨-, -, hover, hunder, hrest⟩ := h
      have hmoves := ih hrest hfits.2
      have hfit := hfits.1
      rw [overfilled, relieved]
      grind

theorem Sound.append (h : Sound teams moves) (h' : Sound (applyMoves teams moves) moves') :
    Sound teams (moves ++ moves') := by
  induction moves generalizing teams with
  | nil => exact h'
  | cons m moves ih => exact ⟨h.1, h.2.1, h.2.2.1, h.2.2.2.1, ih h.2.2.2.2 h'⟩

end Load

/-! ## the loop -/

/-- The spare room that the loop keeps is the room of the teams. -/
def Tracks (teams : List TeamSnapshot) (spare : List (String × Int)) : Prop :=
  ∀ entry ∈ spare, entry.1 ∈ teams.map TeamSnapshot.teamId ∧ room teams entry.1 = entry.2

/-- The teams with room. -/
def targets (spare : List (String × Int)) : List String := spare.map Prod.fst

@[simp] theorem targets_spend (target : String) (points : Nat) (spare : List (String × Int)) :
    targets (spend target points spare) = targets spare := by
  simp only [targets, spend, List.map_map]
  refine List.map_congr_left fun entry _ => ?_
  simp only [Function.comp_apply]
  split <;> rfl

theorem mostSpare_mem {cs : List (String × Int)} {c : String × Int} (h : mostSpare cs = some c) : c ∈ cs := by
  obtain _ | ⟨c₀, cs⟩ := cs
  · contradiction
  · rw [mostSpare, Option.some.injEq] at h
    subst h
    induction cs generalizing c₀ with
    | nil => simp
    | cons c₁ cs ih =>
        rw [List.foldl_cons]
        have hmem := ih (if c₀.2 < c₁.2 then c₁ else c₀)
        grind

/-- What a run of moves out of the team `overTeam` leaves behind. -/
structure Leaves (overTeamId : String) (teams : List TeamSnapshot) (spare : List (String × Int))
    (moves : List RebalanceMove) (spare' : List (String × Int)) : Prop where
  sound : Sound teams moves
  tracks : Tracks (applyMoves teams moves) spare'
  targets : targets spare' = targets spare
  others : ∀ teamId ∈ teams.map TeamSnapshot.teamId, teamId ≠ overTeamId → teamId ∉ Capacity.targets spare →
    room (applyMoves teams moves) teamId = room teams teamId
  ends : ∀ m ∈ moves, m.fromTeamId = overTeamId ∧ m.toTeamId ∈ Capacity.targets spare

section Loop

variable {snapshot teams : List TeamSnapshot} {overTeam : TeamSnapshot} {spare : List (String × Int)}

theorem Leaves.nothing (h : Tracks teams spare) (overTeamId : String) :
    Leaves overTeamId teams spare [] spare where
  sound := trivial
  tracks := h
  targets := rfl
  others _ _ _ _ := rfl
  ends _ hm := by simp at hm

theorem Tracks.applyMove (h : Tracks teams spare) {m : RebalanceMove} (hfrom : m.fromTeamId ∉ targets spare) :
    Tracks (applyMove teams m) (spend m.toTeamId m.storyPoints spare) := by
  intro entry hentry
  obtain ⟨old, hold, rfl⟩ := List.mem_map.mp hentry
  obtain ⟨hid, hroom⟩ := h old hold
  have hne : old.1 ≠ m.fromTeamId := fun he => hfrom (he ▸ List.mem_map_of_mem hold)
  have hafter : room (Capacity.applyMove teams m) old.1 =
      old.2 - if old.1 = m.toTeamId then (m.storyPoints : Int) else 0 := by
    rw [room_applyMove hid, hroom, if_neg hne, add_zero]
  split
  · next he => exact ⟨by rwa [teamIds_applyMove], by rw [hafter, if_pos he]⟩
  · next he => exact ⟨by rwa [teamIds_applyMove], by rw [hafter, if_neg he, sub_zero]⟩

/-- Moving tasks out of one team leaves the other overloaded teams alone. -/
theorem leaves_moveTasks (snapshot : List TeamSnapshot) (tasks : List MovableTask) {excess : Int}
    (hover : overTeam.teamId ∈ teams.map TeamSnapshot.teamId) (hexcess : room teams overTeam.teamId = -excess)
    (hspare : Tracks teams spare) (hapart : overTeam.teamId ∉ targets spare) :
    Leaves overTeam.teamId teams spare (moveTasks snapshot overTeam tasks excess spare).1
      (moveTasks snapshot overTeam tasks excess spare).2 := by
  induction tasks generalizing teams excess spare with
  | nil => exact .nothing hspare _
  | cons task tasks ih =>
      rw [moveTasks]
      split
      · exact .nothing hspare _
      · next hleft =>
          split
          · exact .nothing hspare _
          · next target left htarget =>
              obtain ⟨hmem, hpos⟩ := List.mem_filter.mp (mostSpare_mem htarget)
              obtain ⟨hid, hroom⟩ := hspare _ hmem
              have htargets : target ∈ targets spare := List.mem_map_of_mem hmem
              have hne : overTeam.teamId ≠ target := fun he => hapart (he ▸ htargets)
              generalize hm : RebalanceMove.mk task.taskId task.title task.storyPoints overTeam.teamId
                overTeam.name target (nameOf snapshot target) = m
              have hfrom : m.fromTeamId = overTeam.teamId := by rw [← hm]
              have hto : m.toTeamId = target := by rw [← hm]
              have hpoints : m.storyPoints = task.storyPoints := by rw [← hm]
              have hspare' := hspare.applyMove (m := m) (hfrom ▸ hapart)
              rw [hto, hpoints] at hspare'
              have hexcess' : room (applyMove teams m) overTeam.teamId = -(excess - task.storyPoints) := by
                rw [room_applyMove hover, hexcess, hfrom, hto, hpoints, if_pos rfl, if_neg hne]
                ring
              have hrest := ih (by rwa [teamIds_applyMove]) hexcess' hspare' (by rwa [targets_spend])
              refine ⟨⟨hfrom ▸ hover, hto ▸ hid, ?_, ?_, hrest.sound⟩, hrest.tracks,
                hrest.targets.trans (targets_spend _ _ _), ?_, ?_⟩
              · rw [hfrom, hexcess]
                omega
              · rw [hto, hroom]
                exact of_decide_eq_true hpos
              · intro teamId hteam hother hnot
                have hotherTarget : teamId ≠ target := fun he => hnot (he ▸ htargets)
                rw [applyMoves_cons, hrest.others teamId (by rwa [teamIds_applyMove]) hother (by rwa [targets_spend]),
                  room_applyMove hteam, hfrom, hto, if_neg hother, if_neg hotherTarget]
                ring
              · intro m' hm'
                rcases List.mem_cons.mp hm' with rfl | hm'
                · exact ⟨hfrom, hto ▸ htargets⟩
                · have := hrest.ends m' hm'
                  rwa [targets_spend] at this

theorem sound_moveTeams (movableTasks : List MovableTask) (overs : List TeamSnapshot)
    (hdistinct : (overs.map TeamSnapshot.teamId).Nodup)
    (hovers : ∀ t ∈ overs, t.teamId ∈ teams.map TeamSnapshot.teamId ∧
      room teams t.teamId = t.capacity - t.remaining ∧ t.teamId ∉ targets spare)
    (hspare : Tracks teams spare) : Sound teams (moveTeams snapshot movableTasks overs spare) := by
  induction overs generalizing teams spare with
  | nil => trivial
  | cons overTeam overs ih =>
      obtain ⟨hid, hroom, hapart⟩ := hovers overTeam (List.mem_cons_self ..)
      have hexcess : room teams overTeam.teamId = -(overTeam.remaining - overTeam.capacity) := by
        rw [hroom]
        ring
      have hfirst := leaves_moveTasks snapshot (tasksOf movableTasks overTeam.teamId) hid hexcess hspare hapart
      rw [List.map_cons, List.nodup_cons] at hdistinct
      refine hfirst.sound.append (ih hdistinct.2 (fun t ht => ?_) hfirst.tracks)
      obtain ⟨hid', hroom', hapart'⟩ := hovers t (List.mem_cons_of_mem _ ht)
      have hne : t.teamId ≠ overTeam.teamId := fun he => hdistinct.1 (he ▸ List.mem_map_of_mem ht)
      refine ⟨by rwa [teamIds_applyMoves], ?_, by rwa [hfirst.targets]⟩
      rw [hfirst.others t.teamId hid' hne hapart', hroom']

end Loop

/-! ## the tasks and the teams of the moves -/

section Ends

variable {snapshot : List TeamSnapshot} {overTeam : TeamSnapshot} {spare : List (String × Int)}

theorem mem_sortedDescending {α : Type} {key : α → Int} {l : List α} {a : α} :
    a ∈ sortedDescending key l ↔ a ∈ l := by
  simp [sortedDescending]

theorem sortedDescending_perm {α : Type} (key : α → Int) (l : List α) : (sortedDescending key l).Perm l :=
  List.perm_insertionSort _ _

theorem count_tasksOf (movableTasks : List MovableTask) (teamId : String) (task : MovableTask) :
    (tasksOf movableTasks teamId).count task = (movableTasks.filter fun t => t.teamId = teamId).count task :=
  (sortedDescending_perm _ _).count_eq task

theorem mem_tasksOf {movableTasks : List MovableTask} {task : MovableTask} :
    task ∈ tasksOf movableTasks teamId ↔ task ∈ movableTasks ∧ task.teamId = teamId := by
  simp [tasksOf, mem_sortedDescending]

theorem toTeamId_moveTasks (snapshot : List TeamSnapshot) (overTeam : TeamSnapshot) (tasks : List MovableTask)
    (excess : Int) (spare : List (String × Int)) : (∀ m ∈ (moveTasks snapshot overTeam tasks excess spare).1,
      m.fromTeamId = overTeam.teamId ∧ m.toTeamId ∈ targets spare) ∧
    targets (moveTasks snapshot overTeam tasks excess spare).2 = targets spare := by
  induction tasks generalizing excess spare with
  | nil => simp [moveTasks]
  | cons task tasks ih =>
      rw [moveTasks]
      split
      · simp
      · split
        · simp
        · next target left htarget =>
            have hmem := (List.mem_filter.mp (mostSpare_mem htarget)).1
            obtain ⟨hends, hafter⟩ := ih (excess - task.storyPoints) (spend target task.storyPoints spare)
            rw [targets_spend] at hends hafter
            refine ⟨fun m hm => ?_, hafter⟩
            rcases List.mem_cons.mp hm with rfl | hm
            · exact ⟨rfl, List.mem_map_of_mem hmem⟩
            · exact hends m hm

theorem task_moveTasks (snapshot : List TeamSnapshot) (tasks : List MovableTask)
    (hteam : ∀ task ∈ tasks, task.teamId = overTeam.teamId) (excess : Int) (spare : List (String × Int)) :
    ((moveTasks snapshot overTeam tasks excess spare).1.map RebalanceMove.task).Sublist tasks := by
  induction tasks generalizing excess spare with
  | nil => simp [moveTasks]
  | cons task tasks ih =>
      rw [moveTasks]
      split
      · simp
      · split
        · simp
        · have htask : task.teamId = overTeam.teamId := hteam task (List.mem_cons_self ..)
          simp only [List.map_cons, RebalanceMove.task, ← htask]
          exact (ih (fun t ht => hteam t (List.mem_cons_of_mem _ ht)) _ _).cons_cons task

variable {movableTasks : List MovableTask}

theorem ends_moveTeams (overs : List TeamSnapshot) :
    ∀ m ∈ moveTeams snapshot movableTasks overs spare,
      m.fromTeamId ∈ overs.map TeamSnapshot.teamId ∧ m.toTeamId ∈ targets spare := by
  induction overs generalizing spare with
  | nil => simp [moveTeams]
  | cons overTeam overs ih =>
      intro m hm
      obtain ⟨hends, hafter⟩ := toTeamId_moveTasks snapshot overTeam (tasksOf movableTasks overTeam.teamId)
        (overTeam.remaining - overTeam.capacity) spare
      rw [List.map_cons, List.mem_cons]
      rcases List.mem_append.mp hm with hm | hm
      · exact ⟨.inl (hends m hm).1, (hends m hm).2⟩
      · obtain ⟨hfrom, hto⟩ := ih m hm
        exact ⟨.inr hfrom, hafter ▸ hto⟩

theorem count_task_moveTeams (overs : List TeamSnapshot) (hdistinct : (overs.map TeamSnapshot.teamId).Nodup)
    (task : MovableTask) :
    ((moveTeams snapshot movableTasks overs spare).map RebalanceMove.task).count task ≤
      if task.teamId ∈ overs.map TeamSnapshot.teamId then movableTasks.count task else 0 := by
  induction overs generalizing spare with
  | nil => simp [moveTeams]
  | cons overTeam overs ih =>
      rw [List.map_cons, List.nodup_cons] at hdistinct
      have hsub := task_moveTasks snapshot (tasksOf movableTasks overTeam.teamId)
        (fun t ht => (mem_tasksOf.mp ht).2) (overTeam.remaining - overTeam.capacity) spare
      have hfirst := (hsub.count_le task).trans_eq (count_tasksOf movableTasks overTeam.teamId task)
      have hrest := @ih (moveTasks snapshot overTeam (tasksOf movableTasks overTeam.teamId)
        (overTeam.remaining - overTeam.capacity) spare).2 hdistinct.2
      rw [moveTeams, List.map_append, List.count_append]
      by_cases hteam : task.teamId = overTeam.teamId
      · have hapart : task.teamId ∉ overs.map TeamSnapshot.teamId := hteam ▸ hdistinct.1
        rw [if_neg hapart] at hrest
        rw [List.map_cons, if_pos (List.mem_cons.mpr (.inl hteam))]
        have hall := List.Sublist.count_le (a := task)
          (List.filter_sublist (p := fun t : MovableTask => t.teamId = overTeam.teamId) (l := movableTasks))
        omega
      · have hnone : (movableTasks.filter fun t => t.teamId = overTeam.teamId).count task = 0 :=
          List.count_eq_zero.mpr fun hmem => hteam (of_decide_eq_true (List.mem_filter.mp hmem).2)
        rw [hnone] at hfirst
        have hiff : task.teamId ∈ (overTeam :: overs).map TeamSnapshot.teamId ↔
            task.teamId ∈ overs.map TeamSnapshot.teamId := by simp [hteam]
        rw [if_congr hiff rfl rfl]
        omega

end Ends

/-! ## the suggestion -/

section Greedy

variable {teams : List TeamSnapshot}

theorem mem_overTeams : t ∈ overTeams teams ↔ t ∈ teams ∧ t.capacity < t.remaining := by
  simp [overTeams, mem_sortedDescending]

theorem nodup_overTeams (hids : (teams.map TeamSnapshot.teamId).Nodup) :
    ((overTeams teams).map TeamSnapshot.teamId).Nodup :=
  ((sortedDescending_perm _ _).map _).nodup_iff.mpr (hids.sublist (List.filter_sublist.map _))

theorem mem_targets_spareOf :
    teamId ∈ targets (spareOf teams) ↔ ∃ t ∈ teams, t.teamId = teamId ∧ t.remaining < t.capacity := by
  simp only [targets, spareOf, List.map_map, List.mem_map, List.mem_filter, Function.comp_apply,
    decide_eq_true_eq]
  grind

theorem tracks_spareOf (hids : (teams.map TeamSnapshot.teamId).Nodup) : Tracks teams (spareOf teams) := by
  intro entry hentry
  obtain ⟨t, ht, rfl⟩ := List.mem_map.mp hentry
  have hmem := (List.mem_filter.mp ht).1
  exact ⟨List.mem_map_of_mem hmem, room_eq hids hmem⟩

theorem sound_greedyRebalance (hids : (teams.map TeamSnapshot.teamId).Nodup) (movableTasks : List MovableTask) :
    Sound teams (greedyRebalance teams movableTasks) := by
  refine sound_moveTeams movableTasks (overTeams teams) (nodup_overTeams hids) (fun t ht => ?_) (tracks_spareOf hids)
  obtain ⟨hmem, hover⟩ := mem_overTeams.mp ht
  refine ⟨List.mem_map_of_mem hmem, room_eq hids hmem, fun htarget => ?_⟩
  obtain ⟨u, hu, hid, hunder⟩ := mem_targets_spareOf.mp htarget
  have hroom := room_eq hids hmem
  rw [← hid, room_eq hids hu] at hroom
  omega

/-- **The suggestion.**  A task is moved at most as often as it is listed, from a team that
is over its capacity to one that is under it, in the report and still after the moves before
it.  The total overload loses what the moves take off the excess and gains what they add
beyond the room, so it does not grow where every task fits into the two. -/
theorem greedyRebalance_overload (teams : List TeamSnapshot) (movableTasks : List MovableTask)
    (hids : (teams.map TeamSnapshot.teamId).Nodup) :
    (∀ task, ((greedyRebalance teams movableTasks).map RebalanceMove.task).count task ≤ movableTasks.count task) ∧
    (∀ m ∈ greedyRebalance teams movableTasks,
      (∃ t ∈ teams, t.teamId = m.fromTeamId ∧ t.capacity < t.remaining) ∧
      ∃ t ∈ teams, t.teamId = m.toTeamId ∧ t.remaining < t.capacity) ∧
    Sound teams (greedyRebalance teams movableTasks) ∧
    totalOverload (applyMoves teams (greedyRebalance teams movableTasks)) +
        relieved teams (greedyRebalance teams movableTasks) =
      totalOverload teams + overfilled teams (greedyRebalance teams movableTasks) ∧
    (Fits teams (greedyRebalance teams movableTasks) →
      totalOverload (applyMoves teams (greedyRebalance teams movableTasks)) ≤ totalOverload teams) := by
  have hsound := sound_greedyRebalance hids movableTasks
  have htotal := totalOverload_applyMoves hids hsound
  refine ⟨fun task => ?_, fun m hm => ?_, hsound, htotal, fun hfits => ?_⟩
  · refine (count_task_moveTeams _ (nodup_overTeams hids) task).trans ?_
    split
    · exact le_refl _
    · exact Nat.zero_le _
  · obtain ⟨hfrom, hto⟩ := ends_moveTeams (overTeams teams) m hm
    obtain ⟨t, ht, hid⟩ := List.mem_map.mp hfrom
    obtain ⟨hmem, hover⟩ := mem_overTeams.mp ht
    exact ⟨⟨t, hmem, hid, hover⟩, mem_targets_spareOf.mp hto⟩
  · have hless := overfilled_le_relieved hsound hfits
    omega

end Greedy

/-! ## a report -/

def sampleTeams : List TeamSnapshot := [⟨"a", "Team A", 10, 11⟩, ⟨"b", "Team B", 10, 9⟩]

theorem greedyRebalance_overload_sample :
    (sampleTeams.map TeamSnapshot.teamId).Nodup ∧
    totalOverload (applyMoves sampleTeams (greedyRebalance sampleTeams [⟨"t1", "Task", 2, "a"⟩])) ≤
      totalOverload sampleTeams := by
  have hids : (sampleTeams.map TeamSnapshot.teamId).Nodup := by decide
  have hmoves : greedyRebalance sampleTeams [⟨"t1", "Task", 2, "a"⟩] =
      [⟨"t1", "Task", 2, "a", "Team A", "b", "Team B"⟩] := by decide
  refine ⟨hids, (greedyRebalance_overload sampleTeams [⟨"t1", "Task", 2, "a"⟩] hids).2.2.2.2 ?_⟩
  rw [hmoves]
  exact ⟨by decide, trivial⟩

/-- A task of eight points goes to the team with room for one: two teams that were one
point over and one under are seven over and seven under. -/
theorem overload_grows :
    totalOverload sampleTeams = 1 ∧
    totalOverload (applyMoves sampleTeams (greedyRebalance sampleTeams [⟨"t1", "Task", 8, "a"⟩])) = 7 := by
  decide

end Anoryx.Delta.Capacity
