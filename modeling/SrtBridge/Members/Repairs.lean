import SrtBridge.Members.Ledger

/-! How many replacements the bridge spawns. Each member spawned for the application
brings an allowance of `maxStrandedRepairs`; a replacement takes one off the allowance
of the member it replaces and inherits the rest, and a hand-over to a sibling forgoes
what is left. So a race that strands every member ends. -/

namespace SrtBridge

open General

def MemberEvent.repairStep : MemberEvent → Option ℕ
  | .repair k _ _ _ => some k
  | _ => none

def MemberEvent.spawnStep : MemberEvent → Option ℕ
  | .spawn k _ _ => some k
  | _ => none

def repairedAt (T : List MemberEvent) (k : ℕ) : Bool := T.any fun e => e.repairStep = some k

def spawnSteps (T : List MemberEvent) : List ℕ := T.filterMap MemberEvent.spawnStep

def repairSpawns (T : List MemberEvent) : ℕ := (spawnSteps T).countP (repairedAt T)

def appSpawns (T : List MemberEvent) : ℕ := (spawnSteps T).countP fun k => !repairedAt T k

section Counts

variable {T events : List MemberEvent} {k : ℕ}

@[simp] theorem spawnSteps_append :
    spawnSteps (T ++ events) = spawnSteps T ++ spawnSteps events := List.filterMap_append ..

@[simp] theorem repairedAt_append (n : ℕ) :
    repairedAt (T ++ events) n = (repairedAt T n || repairedAt events n) := List.any_append ..

theorem repairedAt_of_step (h : ∀ e ∈ T, e.step ≠ k) : repairedAt T k = false := by
  simp only [repairedAt, List.any_eq_false, decide_eq_true_eq]
  intro e he hr
  cases e with
  | repair i id chain plan => exact h _ he (Option.some.inj hr)
  | _ => cases hr

theorem mem_spawnSteps {n : ℕ} (h : n ∈ spawnSteps T) : ∃ e ∈ T, e.step = n := by
  obtain ⟨e, he, hs⟩ := List.mem_filterMap.mp h
  cases e with
  | spawn i id ep => exact ⟨_, he, Option.some.inj hs⟩
  | _ => cases hs

/-- What a step does is not mixed up with what was done before it. -/
theorem countP_spawnSteps_append (f : Bool → Bool) (hT : ∀ e ∈ T, e.step < k)
    (he : ∀ e ∈ events, e.step = k) :
    (spawnSteps (T ++ events)).countP (fun n => f (repairedAt (T ++ events) n)) =
      (spawnSteps T).countP (fun n => f (repairedAt T n)) +
        (spawnSteps events).countP fun _ => f (repairedAt events k) := by
  rw [spawnSteps_append, List.countP_append]
  congr 1
  · refine List.countP_congr fun n hn => ?_
    obtain ⟨e, hmem, rfl⟩ := mem_spawnSteps hn
    have hnone : repairedAt events e.step = false :=
      repairedAt_of_step fun e' he' => by have := hT e hmem; have := he e' he'; omega
    rw [repairedAt_append, hnone, Bool.or_false]
  · refine List.countP_congr fun n hn => ?_
    obtain ⟨e, hmem, rfl⟩ := mem_spawnSteps hn
    have hnone : repairedAt T e.step = false :=
      repairedAt_of_step fun e' he' => by have := hT e' he'; have := he e hmem; omega
    rw [repairedAt_append, hnone, Bool.false_or, he e hmem]

theorem repairSpawns_append (hT : ∀ e ∈ T, e.step < k) (he : ∀ e ∈ events, e.step = k) :
    repairSpawns (T ++ events) =
      repairSpawns T + if repairedAt events k then (spawnSteps events).length else 0 := by
  have hcount := countP_spawnSteps_append id hT he
  simp only [id] at hcount
  rw [repairSpawns, hcount]
  split_ifs with hr <;> simp [hr, repairSpawns]

theorem appSpawns_append (hT : ∀ e ∈ T, e.step < k) (he : ∀ e ∈ events, e.step = k) :
    appSpawns (T ++ events) =
      appSpawns T + if repairedAt events k then 0 else (spawnSteps events).length := by
  have hcount := countP_spawnSteps_append (!·) hT he
  rw [appSpawns, hcount]
  split_ifs with hr <;> simp [hr, appSpawns]

end Counts

/-- The replacements the watched members may still have. -/
def allowance (ws : List WatchedMember) : ℕ := (ws.map fun w => maxStrandedRepairs - w.repairs).sum

section Allowance

@[simp] theorem allowance_nil : allowance [] = 0 := rfl

@[simp] theorem allowance_cons (w : WatchedMember) (ws : List WatchedMember) :
    allowance (w :: ws) = maxStrandedRepairs - w.repairs + allowance ws := by
  simp [allowance]

@[simp] theorem allowance_append (xs ys : List WatchedMember) :
    allowance (xs ++ ys) = allowance xs + allowance ys := by
  simp [allowance]

theorem allowance_perm {xs ys : List WatchedMember} (h : xs.Perm ys) : allowance xs = allowance ys :=
  (h.map _).sum_eq

theorem allowance_handedTo {other : SocketId} {chain : List SocketId} {xs xs' : List WatchedMember}
    (h : HandedTo other chain xs xs') : allowance xs' = allowance xs := by
  obtain ⟨a, e, b, rfl, -, rfl⟩ := h
  simp

theorem allowance_readLive (lib : Libsrt) (k : ℕ) (ws : List WatchedMember) :
    allowance (readLive lib k ws) = allowance ws := by
  induction ws generalizing k with
  | nil => rfl
  | cons w ws ih => simp [readLive, ih]

theorem allowance_watchSpawned (lib : Libsrt) (k : ℕ) (now : Instant)
    (members : List (GroupEndpoint × SocketId)) :
    allowance (watchSpawned lib k now members) = maxStrandedRepairs * members.length := by
  induction members with
  | nil => rfl
  | cons e members ih =>
    have hcons : watchSpawned lib k now (e :: members) =
        .spawned lib k e.2 e.1 now :: watchSpawned lib k now members := rfl
    rw [hcons, allowance_cons, ih, WatchedMember.spawned_repairs, List.length_cons, Nat.mul_succ]
    omega

end Allowance

section Exit

variable {lib : Libsrt} {inp : CheckInput} {k : ℕ} {seen : List WatchedMember} {w : WatchedMember}
  {unseen spawned seen' unseen' spawned' : List WatchedMember} {events : List MemberEvent}

@[simp] theorem lookAt_repairs : (lookAt lib inp k w).member.repairs = w.repairs := by
  unfold lookAt closeSuperseded
  dsimp only
  split_ifs <;> simp

@[simp] theorem spawnSteps_closeMembers (ids : List SocketId) :
    spawnSteps (closeMembers k ids) = [] := by
  simp [spawnSteps, closeMembers, MemberEvent.spawnStep]

@[simp] theorem spawnSteps_look (now : Instant) (l : Look) : spawnSteps (l.events k now) = [] := by
  rw [Look.events, ← List.singleton_append, spawnSteps_append, spawnSteps_closeMembers]
  rfl

@[simp] theorem spawnSteps_repairEvents (plan : RepairPlan) :
    spawnSteps (repairEvents lib inp k w plan) = [] := by
  rw [repairEvents, spawnSteps_append, spawnSteps_look]
  rfl

@[simp] theorem spawnSteps_spawn (id : SocketId) (ep : GroupEndpoint) :
    spawnSteps [.spawn k id ep] = [k] := rfl

/-- A member is replaced only while it has an allowance left. -/
theorem repairs_lt_of_planAt
    (h : planAt lib inp k seen w unseen spawned = .closeThenSpawn ∨
      planAt lib inp k seen w unseen spawned = .spawnThenClose) : w.repairs < maxStrandedRepairs := by
  have hrep : (lookAt lib inp k w).member.repairs = w.repairs := lookAt_repairs
  rw [← hrep]
  rcases h with h | h
  · exact (repairPlan_closeThenSpawn h).2.1
  · exact (repairPlan_spawnThenClose h).2.1

/-- What a turn spawns comes off the allowance, and it spawns to repair only. -/
theorem Exit.allowance (h : Exit lib inp k seen w unseen spawned seen' unseen' spawned' events) :
    SrtBridge.allowance (seen' ++ unseen' ++ spawned') + (spawnSteps events).length ≤
        SrtBridge.allowance (seen ++ w :: unseen ++ spawned) ∧
      (spawnSteps events ≠ [] → repairedAt events k = true) := by
  have hfront : SrtBridge.allowance (lastToFront unseen) = SrtBridge.allowance unseen :=
    allowance_perm (lastToFront_perm unseen)
  have hrep (plan : RepairPlan) (rest : List MemberEvent) :
      repairedAt (repairEvents lib inp k w plan ++ rest) k = true := by
    simp [repairEvents, repairedAt, MemberEvent.repairStep]
  cases h with
  | later => simp [spawnSteps]
  | keep _ _ hk => simp [hk]
  | recheck => simp
  | drop | abandon | close =>
    simp only [allowance_append, allowance_cons, hfront, spawnSteps_append, spawnSteps_look,
      spawnSteps_repairEvents, spawnSteps_closeMembers, List.nil_append, List.length_nil]
    exact ⟨by omega, fun h => absurd rfl h⟩
  | hand hd hn hp hh =>
    have hsum := allowance_handedTo hh
    simp only [allowance_append, allowance_cons, hfront] at hsum ⊢
    rw [hsum, spawnSteps_repairEvents]
    exact ⟨by rw [List.length_nil]; omega, fun h => absurd rfl h⟩
  | closeSpawn _ _ hp =>
    have hlt := repairs_lt_of_planAt (.inl hp)
    refine ⟨?_, fun _ => by rw [List.append_assoc]; exact hrep _ _⟩
    simp only [allowance_append, allowance_cons, allowance_nil, hfront, replacement,
      spawnSteps_append, spawnSteps_repairEvents, spawnSteps_closeMembers, spawnSteps_spawn,
      List.nil_append, List.length_singleton]
    omega
  | overlap _ _ hp =>
    have hlt := repairs_lt_of_planAt (.inr hp)
    refine ⟨?_, fun _ => hrep _ _⟩
    simp only [allowance_append, allowance_cons, allowance_nil, hfront, replacement,
      spawnSteps_append, spawnSteps_repairEvents, spawnSteps_spawn, List.nil_append,
      List.length_singleton]
    omega

theorem Exit.repairs_le (h : Exit lib inp k seen w unseen spawned seen' unseen' spawned' events)
    (hle : ∀ v ∈ seen ++ w :: unseen ++ spawned, v.repairs ≤ maxStrandedRepairs) :
    ∀ v ∈ seen' ++ unseen' ++ spawned', v.repairs ≤ maxStrandedRepairs := by
  have hpass {u v : WatchedMember} (hp : Passed lib inp k seen w unseen spawned u v) :
      v.repairs = u.repairs := by cases hp <;> rfl
  have hkept {v : WatchedMember} (hk : Kept lib inp k seen w unseen spawned v) :
      v.repairs = w.repairs := by
    cases hk with
    | later => rfl
    | keep _ _ hk => rw [hk]; exact lookAt_repairs
    | recheck => exact lookAt_repairs
  have hrep {v : WatchedMember} (hv : Replaces lib inp k seen w unseen spawned v) :
      v.repairs ≤ maxStrandedRepairs := by
    cases hv with
    | closed _ _ hp => exact repairs_lt_of_planAt (.inl hp)
    | overlaps _ _ hp => exact repairs_lt_of_planAt (.inr hp)
  obtain ⟨hseen, hunseen, hspawned⟩ := h.origins
  intro v hv
  rcases List.mem_append.mp hv with hv | hv
  · rcases List.mem_append.mp hv with hv | hv
    · rcases hseen v hv with ⟨u, hu, hp⟩ | hk
      · exact hpass hp ▸ hle u (by simp [hu])
      · exact hkept hk ▸ hle w (by simp)
    · obtain ⟨u, hu, hp⟩ := hunseen v hv
      exact hpass hp ▸ hle u (by simp [hu])
  · rcases hspawned v hv with ⟨u, hu, hp⟩ | hv
    · exact hpass hp ▸ hle u (by simp [hu])
    · exact hrep hv

end Exit

/-- At every moment of the trace the replacements are within the allowance. -/
def RepairsBounded (T : List MemberEvent) : Prop :=
  ∀ T', T' <+: T → repairSpawns T' ≤ maxStrandedRepairs * appSpawns T'

/-- What was spawned, and may still be, is within the allowance. -/
structure Budgeted (ws : List WatchedMember) (k : ℕ) (T : List MemberEvent) : Prop where
  steps : ∀ e ∈ T, e.step < k
  repairs : ∀ w ∈ ws, w.repairs ≤ maxStrandedRepairs
  budget : repairSpawns T + allowance ws ≤ maxStrandedRepairs * appSpawns T
  bounded : RepairsBounded T

section Budget

variable {ws ws' : List WatchedMember} {k : ℕ} {T events : List MemberEvent}

theorem RepairsBounded.append (h : RepairsBounded T) (hT : ∀ e ∈ T, e.step < k)
    (he : ∀ e ∈ events, e.step = k)
    (hb : repairSpawns T + (if repairedAt events k then (spawnSteps events).length else 0) ≤
      maxStrandedRepairs * appSpawns T) : RepairsBounded (T ++ events) := by
  rintro T' ⟨rest, hrest⟩
  rcases List.append_eq_append_iff.mp hrest with ⟨c, hc, -⟩ | ⟨c, rfl, rfl⟩
  · exact h T' ⟨c, hc.symm⟩
  · have hc : ∀ e ∈ c, e.step = k := fun e hmem => he e (List.mem_append_left _ hmem)
    have hsome : repairedAt c k = true → repairedAt (c ++ rest) k = true := by simp +contextual
    have hlen : (spawnSteps c).length ≤ (spawnSteps (c ++ rest)).length := by simp
    have happ : appSpawns T ≤ appSpawns (T ++ c) := by rw [appSpawns_append hT hc]; omega
    have hmul := Nat.mul_le_mul_left maxStrandedRepairs happ
    rw [repairSpawns_append hT hc]
    split_ifs at hb ⊢ with hr hr' <;> first | omega | exact absurd (hsome ‹_›) ‹_›

theorem Budgeted.later (h : Budgeted ws k T) {k' : ℕ} (hk : k ≤ k')
    (hw : allowance ws' = allowance ws) (hr : ∀ w ∈ ws', w.repairs ≤ maxStrandedRepairs) :
    Budgeted ws' k' T :=
  ⟨fun e he => (h.steps e he).trans_le hk, hr, hw ▸ h.budget, h.bounded⟩

/-- Members spawned for the application bring their allowance. -/
theorem Budgeted.spawn (h : Budgeted ws k T) (he : ∀ e ∈ events, e.step = k)
    (hr : ∀ w ∈ ws', w.repairs ≤ maxStrandedRepairs) (hn : repairedAt events k = false)
    (hw : allowance ws' ≤ allowance ws + maxStrandedRepairs * (spawnSteps events).length) :
    Budgeted ws' (k + 1) (T ++ events) := by
  have hb := h.budget
  refine ⟨fun e hmem => ?_, hr, ?_, h.bounded.append h.steps he ?_⟩
  · rcases List.mem_append.mp hmem with hmem | hmem
    · exact (h.steps e hmem).trans (Nat.lt_succ_self k)
    · rw [he e hmem]
      exact Nat.lt_succ_self k
  · rw [repairSpawns_append h.steps he, appSpawns_append h.steps he]
    simp only [hn, Bool.false_eq_true, if_false, Nat.add_zero, Nat.mul_add]
    omega
  · rw [hn, if_neg Bool.false_ne_true]
    omega

theorem Budgeted.turn {lib : Libsrt} {inp : CheckInput} {seen : List WatchedMember}
    {w : WatchedMember} {unseen spawned seen' unseen' spawned' : List WatchedMember}
    (h : Budgeted (seen ++ w :: unseen ++ spawned) k T)
    (hx : Exit lib inp k seen w unseen spawned seen' unseen' spawned' events) :
    Budgeted (seen' ++ unseen' ++ spawned') (k + 1) (T ++ events) := by
  obtain ⟨hle, hspawns⟩ := hx.allowance
  have hb := h.budget
  have hall : (if repairedAt events k then (spawnSteps events).length else 0) =
      (spawnSteps events).length := by
    by_cases hs : spawnSteps events = []
    · simp [hs]
    · rw [if_pos (hspawns hs)]
  refine ⟨fun e hmem => ?_, hx.repairs_le h.repairs, ?_,
    h.bounded.append h.steps hx.step_eq (by rw [hall]; omega)⟩
  · rcases List.mem_append.mp hmem with hmem | hmem
    · exact (h.steps e hmem).trans (Nat.lt_succ_self k)
    · rw [hx.step_eq e hmem]
      exact Nat.lt_succ_self k
  · rw [repairSpawns_append h.steps hx.step_eq, appSpawns_append h.steps hx.step_eq, hall,
      Nat.mul_add]
    omega

theorem budgeted_preserved (lib : Libsrt) (grp : SocketId) :
    Preserved lib grp (fun _ => True) (fun ws _ k T => Budgeted ws k T)
      (fun _ seen unseen spawned k T => Budgeted (seen ++ unseen ++ spawned) k T) where
  elapse _ _ h := h
  skip _ h := h.later (Nat.le_succ _) rfl h.repairs
  reorder _ hp h := h.later le_rfl (allowance_perm hp) fun w hw => h.repairs w (hp.mem_iff.mp hw)
  connect {ws now k T endpoints} _ h _ := by
    refine h.spawn (fun e he => ?_) (fun w hw => ?_) ?_ ?_
    · obtain ⟨m, -, rfl⟩ := List.mem_map.mp he
      rfl
    · rcases List.mem_append.mp hw with hw | hw
      · exact h.repairs w hw
      · obtain ⟨e, -, rfl⟩ := List.mem_map.mp hw
        exact Nat.zero_le _
    · simp [repairedAt, spawnEvents, MemberEvent.repairStep]
    · rw [allowance_append, allowance_watchSpawned]
      simp [spawnSteps, spawnEvents, List.filterMap_map, Function.comp_def, MemberEvent.spawnStep]
  add {ws now k T endpoint member} _ h _ _ := by
    refine h.spawn (by simp [MemberEvent.step]) (fun w hw => ?_) rfl ?_
    · rcases List.mem_append.mp hw with hw | hw
      · exact h.repairs w hw
      · rw [List.mem_singleton.mp hw]
        exact Nat.zero_le _
    · simp
  begin {ws now k T inp} h _ _ _ := by
    refine h.later (by omega) ?_ fun w hw => ?_
    · rw [List.nil_append, List.append_nil, allowance_readLive]
    · obtain ⟨v, hv, i, -, -, rfl⟩ := mem_readLive (by simpa using hw)
      exact h.repairs v hv
  turn h hx := h.turn hx
  finish h := h.later (Nat.le_succ _) (by simp) (by simpa using h.repairs)

/-- The bridge cannot spin on reconnecting: whatever libsrt reports, at every moment of a
group's run it has spawned at most `maxStrandedRepairs` replacements for each member spawned
for the application, and no watched member has used up more than that. -/
theorem repairs_bounded (lib : Libsrt) (grp : SocketId) (backup : Bool)
    (actions : List GroupRun.Action) :
    let r := (GroupRun.start backup).run lib grp actions
    RepairsBounded r.trace ∧ ∀ w ∈ r.entry.watched, w.repairs ≤ maxStrandedRepairs := by
  have hstart : (GroupRun.start backup).Holds fun ws _ k T => Budgeted ws k T := by
    refine ⟨rfl, by simp [GroupRun.start], by simp [GroupRun.start, GroupRun.start,
      SocketState.freshGroup, SocketState.fresh], by rfl, ?_⟩
    intro T' hT'
    rw [List.prefix_nil.mp hT']
    rfl
  have hrun : ((GroupRun.start backup).run lib grp actions).Holds fun ws _ k T => Budgeted ws k T :=
    (budgeted_preserved lib grp).holds_run (fun _ _ => trivial) hstart
  exact ⟨hrun.2.bounded, hrun.2.repairs⟩

end Budget

end SrtBridge
