import SrtBridge.General.Runs
import SrtBridge.Members.Repairs
import SrtBridge.Members.Waiting

/-! Recovery ends. A member that is closed for a repair, replaced or handed over is watched no more, so
this happens to each spawned member once at most; and the spawned ones are within the allowance. So the
checks that find something to repair, and nothing to wait for, come to an end as well. -/

namespace SrtBridge

open General

/-- The member that a repair other than waiting was carried out on. -/
def MemberEvent.repairedId : MemberEvent → Option SocketId
  | .repair _ id _ _ => some id
  | _ => none

def repairedIds (T : List MemberEvent) : List SocketId := T.filterMap MemberEvent.repairedId

section Counts

variable {T T' : List MemberEvent} {k : ℕ}

@[simp] theorem repairedIds_append : repairedIds (T ++ T') = repairedIds T ++ repairedIds T' :=
  List.filterMap_append

@[simp] theorem repairedIds_closeMembers (ids : List SocketId) : repairedIds (closeMembers k ids) = [] := by
  simp [repairedIds, closeMembers, MemberEvent.repairedId]

@[simp] theorem repairedIds_spawn (id : SocketId) (ep : GroupEndpoint) :
    repairedIds [.spawn k id ep] = [] := rfl

@[simp] theorem repairedIds_look (now : Instant) (l : Look) : repairedIds (l.events k now) = [] := by
  rw [Look.events, ← List.singleton_append, repairedIds_append, repairedIds_closeMembers]
  rfl

@[simp] theorem repairedIds_repairEvents (lib : Libsrt) (inp : CheckInput) (w : WatchedMember)
    (plan : RepairPlan) : repairedIds (repairEvents lib inp k w plan) = [w.id] := by
  rw [repairEvents, repairedIds_append, repairedIds_look]
  rfl

@[simp] theorem repairedIds_spawnEvents (members : List (GroupEndpoint × SocketId)) :
    repairedIds (spawnEvents k members) = [] := by
  simp [repairedIds, spawnEvents, MemberEvent.repairedId]

theorem Acts.repairedIds_pos (h : Acts T) : 0 < (repairedIds T).length := by
  obtain ⟨k, id, chain, plan, hmem, -⟩ := h
  exact List.length_pos_of_mem (List.mem_filterMap.mpr ⟨_, hmem, rfl⟩)

/-- Each member was spawned by a repair, or for the application. -/
theorem spawnedIds_length (T : List MemberEvent) : (spawnedIds T).length = repairSpawns T + appSpawns T := by
  have hsteps : (spawnedIds T).length = (spawnSteps T).length := by
    rw [spawnedIds, spawnSteps, List.length_filterMap_eq_countP, List.length_filterMap_eq_countP]
    refine List.countP_congr fun e _ => ?_
    cases e <;> simp [MemberEvent.spawnedId, MemberEvent.spawnStep]
  rw [hsteps, List.length_eq_countP_add_countP (repairedAt T)]
  simp [repairSpawns, appSpawns]

end Counts

/-- Each spawned member is watched or repaired, not both, and once. -/
def Spent (ws : List WatchedMember) (T : List MemberEvent) : Prop :=
  ∀ id, (watchedIds ws).count id + (repairedIds T).count id ≤ (spawnedIds T).count id

section Spent

variable {lib : Libsrt} {inp : CheckInput} {k : ℕ} {w : WatchedMember} {T events : List MemberEvent}
  {ws ws' seen unseen spawned seen' unseen' spawned' : List WatchedMember}

@[simp] theorem watchedIds_nil : watchedIds [] = [] := rfl

@[simp] theorem watchedIds_cons (ws : List WatchedMember) : watchedIds (w :: ws) = w.id :: watchedIds ws := rfl

@[simp] theorem watchedIds_append : watchedIds (ws ++ ws') = watchedIds ws ++ watchedIds ws' := List.map_append

/-- What a turn repairs is watched no more, and it watches what it spawns. -/
theorem Exit.spent (h : Exit lib inp k seen w unseen spawned seen' unseen' spawned' events) (id : SocketId) :
    (watchedIds (seen' ++ unseen' ++ spawned')).count id + (repairedIds events).count id ≤
      (watchedIds (seen ++ w :: unseen ++ spawned)).count id + (spawnedIds events).count id := by
  have hlast : (watchedIds (lastToFront unseen)).count id = (watchedIds unseen).count id :=
    ((lastToFront_perm unseen).map _).count_eq id
  cases h with
  | later => simp [repairedIds, List.count_cons]
  | keep _ _ hk => simp [hk, List.count_cons]
  | recheck => simp [List.count_cons]
  | drop | abandon => simp [hlast, List.count_cons]
  | close =>
    simp [hlast, List.count_cons]
    omega
  | hand _ _ _ hh =>
    obtain ⟨a, e, b, hold, -, hnew⟩ := hh
    have hsame : (watchedIds (seen' ++ unseen' ++ spawned')).count id =
        (watchedIds (seen ++ lastToFront unseen ++ spawned)).count id := by
      rw [hold, hnew]
      simp
    rw [hsame]
    simp [hlast, List.count_cons]
    omega
  | closeSpawn | overlap =>
    simp [hlast, List.count_cons, replacement]
    omega

theorem watchedIds_readLive (n : ℕ) : watchedIds (readLive lib n ws) = watchedIds ws := by
  have hkeys := congrArg (List.map Prod.fst) (readLive_keys lib n ws)
  simpa [watchedIds, WatchedMember.key, Function.comp_def] using hkeys

theorem ids_watchSpawned (now : Instant) (members : List (GroupEndpoint × SocketId)) :
    watchedIds (watchSpawned lib k now members) = members.map Prod.snd := by
  simp [watchedIds, watchSpawned]

theorem spent_preserved (lib : Libsrt) (grp : SocketId) :
    Preserved lib grp (fun _ => True) (fun ws _ _ T => Spent ws T)
      (fun _ seen unseen spawned _ T => Spent (seen ++ unseen ++ spawned) T) where
  elapse _ _ h := h
  skip _ h := h
  reorder {ws ws' k T} _ hp h id := by
    have hsame : (watchedIds ws').count id = (watchedIds ws).count id := (hp.map _).count_eq id
    rw [hsame]
    exact h id
  connect _ h _ id := by
    have hid := h id
    simp only [watchedIds_append, ids_watchSpawned, repairedIds_append, repairedIds_spawnEvents,
      spawnedIds_append, spawnedIds_spawnEvents, List.count_append, List.count_nil]
    omega
  add _ h _ _ id := by
    have hid := h id
    simp only [watchedIds_append, watchedIds_cons, watchedIds_nil, WatchedMember.spawned_id,
      repairedIds_append, repairedIds_spawn, spawnedIds_append, spawnedIds_spawn, List.count_append,
      List.count_nil]
    omega
  begin h _ _ _ id := by
    rw [List.nil_append, List.append_nil, watchedIds_readLive]
    exact h id
  turn h hx id := by
    have hid := h id
    have hturn := hx.spent id
    rw [repairedIds_append, spawnedIds_append, List.count_append, List.count_append]
    omega
  finish h := by simpa using h

/-- The members repaired and those watched are together among those spawned. -/
theorem Spent.subperm (h : Spent ws T) : (watchedIds ws ++ repairedIds T).Subperm (spawnedIds T) := by
  refine List.subperm_ext_iff.mpr fun id _ => ?_
  rw [List.count_append]
  exact h id

end Spent

namespace GroupRun

/-- A check of the group would find a due member to be replaced, with one row per member in its listing
and nothing in the way: sockets that read as they did at its start unless it closed them, no handshake
inside its deadline, and every Broken member due with its grace passed. -/
structure Ripe (lib : Libsrt) (grp : SocketId) (r : GroupRun) : Prop where
  rows : ((r.checkInput lib grp).rows.map (·.id)).Nodup
  rereads : Rereads lib grp r
  free : NothingToWaitFor (r.checkInput lib grp) (r.beginCheck lib).watched
  stuck : ∃ k, ∃ w ∈ (r.beginCheck lib).watched, w.notBefore ≤ r.clock ∧
    (lookAt lib (r.checkInput lib grp) k w).next = .repair

variable {lib : Libsrt} {grp : SocketId} {r : GroupRun}

/-- A check of a ripe group acts: on a Broken member if there is one, else on any that is to be replaced. -/
theorem Ripe.acts (h : r.Ripe lib grp) :
    ∃ events, (r.checkGroup lib grp).trace = r.trace ++ events ∧ Acts events := by
  obtain ⟨k, w, hw, hdue, hrepair⟩ := h.stuck
  have hany : r.entry.watched.any (fun w => w.notBefore ≤ r.clock) = true := by
    have hkey : w.key ∈ r.entry.watched.map WatchedMember.key :=
      readLive_keys lib r.step _ ▸ List.mem_map_of_mem hw
    obtain ⟨v, hv, hvw⟩ := List.mem_map.mp hkey
    have hsame : v.notBefore = w.notBefore := congrArg Prod.snd hvw
    exact List.any_eq_true.mpr ⟨v, hv, decide_eq_true (hsame ▸ hdue)⟩
  by_cases hbroken : ∃ v ∈ (r.beginCheck lib).watched, v.live = .connected ∧
      v.checked.ListedBroken (r.checkInput lib grp).rows
  · obtain ⟨v, hv, hlive, hlisted⟩ := hbroken
    obtain ⟨hvdue, hgrace⟩ := h.free.graced v hv hlive hlisted
    have hverdict (k : ℕ) : (lookAt lib (r.checkInput lib grp) k v).verdict = .brokenLive :=
      (verdict_of_listedBroken lib k h.rows hlisted).trans (if_pos hlive)
    refine checkGroup_acts hany h.rereads h.free hv hvdue (fun k => ?_) (.inl hverdict)
    obtain ⟨c, s, -, hnext, -⟩ := lookAt_cases lib (r.checkInput lib grp) k v
    rw [hnext, hverdict k]
    exact if_pos hgrace
  · refine checkGroup_acts hany h.rereads h.free hw hdue (lookAt_repair_step hrepair) (.inr ?_)
    exact fun v hv hlive hlisted => hbroken ⟨v, hv, hlive, hlisted⟩

open Classical in
noncomputable def isRipeCheck (lib : Libsrt) (grp : SocketId) (r : GroupRun) (a : Action) : Bool :=
  decide (a = .check ∧ r.Ripe lib grp)

theorem isRipeCheck_iff {a : Action} : isRipeCheck lib grp r a = true ↔ a = .check ∧ r.Ripe lib grp := by
  simp [isRipeCheck]

theorem repairedIds_act (r : GroupRun) (a : Action) :
    (repairedIds r.trace).length + 1 * (isRipeCheck lib grp r a).toNat ≤
      (repairedIds (act lib grp r a).trace).length := by
  cases hcheck : isRipeCheck lib grp r a with
  | false =>
    obtain ⟨events, hT⟩ : ∃ events, (act lib grp r a).trace = r.trace ++ events := act_trace r a
    rw [hT, repairedIds_append, List.length_append, Bool.toNat_false]
    omega
  | true =>
    obtain ⟨rfl, hripe⟩ := isRipeCheck_iff.mp hcheck
    obtain ⟨events, hT, hacts⟩ := hripe.acts
    have hone := hacts.repairedIds_pos
    show _ ≤ (repairedIds (r.checkGroup lib grp).trace).length
    rw [hT, repairedIds_append, List.length_append, Bool.toNat_true]
    omega

/-- Recovery ends, whatever libsrt reports: in every run of a group the members watched and those that
were closed for a repair, replaced or handed over are together among those spawned; so there are at most
`maxStrandedRepairs` and one ripe checks for each member that was spawned for the application. -/
theorem recovery_ends (lib : Libsrt) (grp : SocketId) (backup : Bool) (actions : List Action) :
    let r := (start backup).run lib grp actions
    (watchedIds r.entry.watched ++ repairedIds r.trace).Subperm (spawnedIds r.trace) ∧
      countAlong (act lib grp) (isRipeCheck lib grp) (start backup) actions ≤
        (maxStrandedRepairs + 1) * appSpawns r.trace := by
  intro r
  have hspent : r.Holds fun ws _ _ T => Spent ws T := by
    refine (spent_preserved lib grp).holds_run (fun _ _ => trivial) ⟨rfl, fun id => ?_⟩
    simp [start, SocketState.freshGroup, SocketState.fresh, repairedIds]
  have hbudget : r.Holds fun ws _ k T => Budgeted ws k T := by
    refine (budgeted_preserved lib grp).holds_run (fun _ _ => trivial) ⟨rfl, by simp [start],
      by simp [start, SocketState.freshGroup, SocketState.fresh], by rfl, fun T' hT' => ?_⟩
    rw [List.prefix_nil.mp hT']
    rfl
  have hsub : (watchedIds r.entry.watched ++ repairedIds r.trace).Subperm (spawnedIds r.trace) :=
    Spent.subperm hspent.2
  refine ⟨hsub, ?_⟩
  have hgrows : (repairedIds (start backup).trace).length +
      1 * countAlong (act lib grp) (isRipeCheck lib grp) (start backup) actions ≤
        (repairedIds r.trace).length :=
    countAlong_grows actions repairedIds_act
  have hlen := hsub.length_le
  have hbounded := hbudget.2.bounded r.trace List.prefix_rfl
  rw [List.length_append, spawnedIds_length] at hlen
  rw [Nat.add_one_mul]
  omega

/-- Two members, both listed Broken on connected sockets past their grace: the next check is ripe. -/
example :
    let ep : GroupEndpoint := ⟨.v4 0x7f000001 9000, none, 1, 7⟩
    let lib := Libsrt.scripted (fun _ => [⟨1, .broken, .broken, 1, 7⟩, ⟨2, .broken, .broken, 1, 8⟩])
      (fun _ _ => .connected)
    ((start false).run lib 5 [.connect [ep], .connect [{ ep with token := 8 }], .check,
      .elapse (fromMillis 500)]).Ripe lib 5 := by
  intro ep lib
  set r := (start false).run lib 5 [.connect [ep], .connect [{ ep with token := 8 }], .check,
    .elapse (fromMillis 500)] with hr
  have hlive : ∀ w ∈ (r.beginCheck lib).watched, w.live = .connected := by
    rw [hr]
    decide +kernel
  have hgrace : ∀ w ∈ (r.beginCheck lib).watched, w.notBefore ≤ r.clock ∧
      strandedMemberGrace ≤ r.clock - w.strandedSince.getD r.clock := by
    rw [hr]
    decide +kernel
  have hrepair : ∃ w ∈ (r.beginCheck lib).watched, w.notBefore ≤ r.clock ∧
      (lookAt lib (r.checkInput lib 5) 0 w).next = .repair := by
    rw [hr]
    decide +kernel
  exact ⟨by decide, fun k _ _ j w hw => .inl (hlive w hw).symm,
    ⟨fun w hw hh => hh.1 (hlive w hw), fun w hw _ _ => hgrace w hw⟩, 0, hrepair⟩

end GroupRun

end SrtBridge
