import SrtBridge.Members.Grace
import SrtBridge.Members.Repairs
import SrtBridge.Members.Waiting

/-! When a member is replaced. The grace clock of a watched member runs from the first of its last
looks, if they all read it stranded; so the record of the looks decides. A due member is replaced, or
waits on another, exactly if it has been read stranded over the grace or is unresolved past its deadline. -/

namespace SrtBridge

/-- The last looks at a member all read it stranded, and go back over the grace from `now`. -/
def StrandedFor (T : List MemberEvent) (id : SocketId) (now : Instant) : Prop :=
  ∃ before run since, looksOf id T = before ++ run ∧ StrandedRun since run ∧ strandedMemberGrace ≤ now - since

/-- The grace clock of a member runs since no later than any of its last looks, if they all read it
stranded. -/
structure Clocked (T : List MemberEvent) (now : Instant) (w : WatchedMember) : Prop where
  past : ∀ s, w.strandedSince = some s → s ≤ now
  counts : ∀ before run since, looksOf w.id T = before ++ run → StrandedRun since run →
    ∃ s, w.strandedSince = some s ∧ s ≤ since

section Clocks

variable {T T' : List MemberEvent} {now now' : Instant} {v w : WatchedMember} {id : SocketId}

theorem looksOf_eq_nil_of_notMem (h : id ∉ lookedIds T) : looksOf id T = [] := by
  rw [looksOf, List.filterMap_eq_nil_iff]
  intro e he
  cases e with
  | look k i now verdict resolveBy left =>
    refine if_neg ?_
    rintro rfl
    exact h (List.mem_filterMap.mpr ⟨_, he, rfl⟩)
  | _ => rfl

theorem Clocked.later (h : Clocked T now w) (hnow : now ≤ now') : Clocked T now' w :=
  ⟨fun s hs => (h.past s hs).trans hnow, h.counts⟩

theorem Clocked.append (h : Clocked T now w) (hl : looksOf w.id T' = []) : Clocked (T ++ T') now w := by
  refine ⟨h.past, ?_⟩
  rw [looksOf_append, hl, List.append_nil]
  exact h.counts

/-- The clock is all of a member that matters. -/
theorem Clocked.same (h : Clocked T now w) (hid : v.id = w.id) (hs : v.strandedSince = w.strandedSince) :
    Clocked T now v := by
  refine ⟨?_, ?_⟩
  · rw [hs]
    exact h.past
  · rw [hid, hs]
    exact h.counts

theorem Clocked.unlooked (hs : w.strandedSince = none) (hl : w.id ∉ lookedIds T) : Clocked T now w := by
  refine ⟨by simp [hs], fun before run since hrun hstranded => ?_⟩
  have hnil : run = [] := by
    apply List.append_eq_nil_iff.mp _ |>.2
    · exact before
    · rw [← hrun, looksOf_eq_nil_of_notMem hl]
  rw [hnil] at hstranded
  cases hstranded.2

end Clocks

section Looks

variable {lib : Libsrt} {inp : CheckInput} {k : ℕ} {w : WatchedMember} {T : List MemberEvent}
  {before run : List Reading} {since : Instant}

/-- Looks that all read the member stranded, the look at hand the last of them: the clock runs since no
later than the first. -/
theorem Clocked.stretch (h : Clocked T inp.now w)
    (hl : looksOf w.id (T ++ [lookEvent lib inp k w]) = before ++ run) (hrun : StrandedRun since run) :
    ((lookAt lib inp k w).verdict = .stranded ∨ (lookAt lib inp k w).verdict = .brokenLive) ∧
      w.strandedSince.getD inp.now ≤ since := by
  rw [looksOf_append, looksOf_lookEvent] at hl
  rcases List.eq_nil_or_concat run with rfl | ⟨earlier, l, rfl⟩
  · cases hrun.2
  rw [List.concat_eq_append, ← List.append_assoc] at hl
  obtain ⟨hT, hlast⟩ := List.append_inj' hl rfl
  obtain rfl := List.singleton_inj.mp hlast
  rw [List.concat_eq_append] at hrun
  refine ⟨hrun.1 _ (List.mem_append_right _ (List.mem_singleton_self _)), ?_⟩
  cases earlier with
  | nil =>
    have hnow : inp.now = since := Option.some.inj hrun.2
    cases hs : w.strandedSince with
    | none => exact hnow.le
    | some s => exact (h.past s hs).trans hnow.le
  | cons x xs =>
    have hearlier : StrandedRun since (x :: xs) :=
      ⟨fun l hl => hrun.1 l (List.mem_append_left _ hl), by simpa using hrun.2⟩
    obtain ⟨s, hs, hle⟩ := h.counts before (x :: xs) since hT hearlier
    rw [hs]
    exact hle

theorem Clocked.look (h : Clocked T inp.now w) (hn : (lookAt lib inp k w).next ≠ .drop) :
    Clocked (T ++ [lookEvent lib inp k w]) inp.now (lookAt lib inp k w).member := by
  have hgone : (lookAt lib inp k w).verdict ≠ .gone := fun hg => hn (lookAt_drop.mpr (.inl hg))
  refine ⟨fun s hs => ?_, fun before run since hl hrun => ?_⟩
  · have hpast : w.strandedSince.getD inp.now ≤ inp.now := by
      cases hw : w.strandedSince with
      | none => exact le_rfl
      | some s => exact h.past s hw
    rw [lookAt_strandedSince] at hs
    cases hv : (lookAt lib inp k w).verdict with
    | gone => exact absurd hv hgone
    | stranded | brokenLive =>
      rw [hv] at hs
      exact Option.some.inj hs ▸ hpast
    | confirmed | masked | handshaking =>
      rw [hv] at hs
      cases hs
  · rw [lookAt_id] at hl
    obtain ⟨hv, hle⟩ := h.stretch hl hrun
    refine ⟨_, ?_, hle⟩
    rw [lookAt_strandedSince]
    rcases hv with hv | hv <;> rw [hv]

/-- A look that reads the member stranded replaces it once the clock has run for the grace. -/
theorem lookAt_next_of_stranded
    (hv : (lookAt lib inp k w).verdict = .stranded ∨ (lookAt lib inp k w).verdict = .brokenLive) :
    (lookAt lib inp k w).next =
      if strandedMemberGrace ≤ inp.now - w.strandedSince.getD inp.now then .repair else .keep := by
  obtain ⟨c, s, -, hn, -⟩ := lookAt_cases lib inp k w
  rw [hn]
  rcases hv with hv | hv <;> rw [hv] <;> rfl

/-- A look that reads the member in its handshake replaces it past its deadline, on a socket that is
not dead. -/
theorem lookAt_next_of_handshaking (hv : (lookAt lib inp k w).verdict = .handshaking)
    (hr : w.resolveBy ≤ inp.now) (ht : isTerminalStatus w.live = false) :
    (lookAt lib inp k w).next = .repair := by
  obtain ⟨c, s, -, hn, -⟩ := lookAt_cases lib inp k w
  rw [hn, hv]
  simp [nextStep, not_lt.mpr hr, ht]

variable (lib k) in
/-- The record decides whether a look chooses to replace the member. -/
theorem Graced.repair_iff (hg : Graced T w) (hc : Clocked T inp.now w) : (lookAt lib inp k w).next = .repair ↔
    StrandedFor (T ++ [lookEvent lib inp k w]) w.id inp.now ∨
      (lookAt lib inp k w).verdict = .handshaking ∧ w.resolveBy ≤ inp.now ∧
        isTerminalStatus w.live = false := by
  constructor
  · intro hn
    rcases lookAt_repair hn with ⟨hv, hgrace⟩ | hlate
    · obtain ⟨before, run, hl, hrun, -⟩ := hg.strandedRun lib inp k hv
      exact .inl ⟨before, run, _, hl, hrun, hgrace⟩
    · exact .inr hlate
  · rintro (⟨before, run, since, hl, hrun, hgrace⟩ | ⟨hv, hr, ht⟩)
    · obtain ⟨hv, hle⟩ := hc.stretch hl hrun
      rw [lookAt_next_of_stranded hv]
      exact if_pos (hgrace.trans (Nat.sub_le_sub_left hle inp.now))
    · exact lookAt_next_of_handshaking hv hr ht

end Looks

/-- Only spawned members have been looked at, and the grace clocks tell those looks. -/
def Punctual (now : Instant) (ws : List WatchedMember) (T : List MemberEvent) : Prop :=
  (∀ id ∈ lookedIds T, id ∈ spawnedIds T) ∧ ∀ w ∈ ws, Clocked T now w

section Turn

variable {lib : Libsrt} {grp : SocketId} {inp : CheckInput} {k : ℕ} {w : WatchedMember} {now : Instant}
  {ws ws' seen unseen spawned seen' unseen' spawned' : List WatchedMember} {events T : List MemberEvent}

/-- Nobody has looked at a member before it is spawned. -/
theorem Punctual.unlooked (h : Punctual now ws T) (hnew : (spawnedIds (T ++ events)).Nodup) {id : SocketId}
    (hid : id ∈ spawnedIds events) : id ∉ lookedIds T := by
  rw [spawnedIds_append] at hnew
  intro hl
  exact (List.nodup_append'.mp hnew).2.2 (h.1 id hl) hid

theorem Punctual.spawn (h : Punctual now ws T) (hl : lookedIds events = [])
    (hnew : (spawnedIds (T ++ events)).Nodup)
    (hws' : ∀ w ∈ ws', w.strandedSince = none ∧ w.id ∈ spawnedIds events) :
    Punctual now (ws ++ ws') (T ++ events) := by
  refine ⟨fun id hid => ?_, fun w hw => ?_⟩
  · rw [lookedIds_append, hl, List.append_nil] at hid
    rw [spawnedIds_append]
    exact List.mem_append_left _ (h.1 id hid)
  rcases List.mem_append.mp hw with hw | hw
  · exact (h.2 w hw).append (looksOf_eq_nil hl)
  · obtain ⟨hs, hid⟩ := hws' w hw
    refine .unlooked hs ?_
    rw [lookedIds_append, hl, List.append_nil]
    exact h.unlooked hnew hid

/-- A member a turn leaves was there before, is the one it looked at, or is a replacement it spawned. -/
theorem Exit.mem_origin (h : Exit lib inp k seen w unseen spawned seen' unseen' spawned' events)
    {v : WatchedMember} (hv : v ∈ seen' ++ unseen' ++ spawned') :
    (∃ u ∈ seen ++ unseen ++ spawned, Passed lib inp k seen w unseen spawned u v) ∨
      Kept lib inp k seen w unseen spawned v ∨ v.strandedSince = none ∧ v.id ∈ spawnedIds events := by
  obtain ⟨hseen, hunseen, -⟩ := h.origins
  rcases List.mem_append.mp hv with hv | hv
  · rcases List.mem_append.mp hv with hv | hv
    · rcases hseen v hv with ⟨u, hu, hp⟩ | hk
      · exact .inl ⟨u, by simp [hu], hp⟩
      · exact .inr (.inl hk)
    · obtain ⟨u, hu, hp⟩ := hunseen v hv
      exact .inl ⟨u, by simp [hu], hp⟩
  · rcases h.mem_spawned hv with ⟨u, hu, hp⟩ | ⟨hr, hspawn⟩
    · exact .inl ⟨u, by simp [hu], hp⟩
    · have hs : v.strandedSince = none := by cases hr <;> rfl
      exact .inr (.inr ⟨hs, mem_spawnedIds.mpr ⟨k, w.endpoint, hspawn⟩⟩)

theorem Exit.punctual (h : Exit lib inp k seen w unseen spawned seen' unseen' spawned' events)
    (ha : Accounted (seen ++ w :: unseen ++ spawned) k T)
    (hnew : (spawnedIds (T ++ events)).Nodup)
    (hp : Punctual inp.now (seen ++ w :: unseen ++ spawned) T) :
    Punctual inp.now (seen' ++ unseen' ++ spawned') (T ++ events) := by
  have hmem : w ∈ seen ++ w :: unseen ++ spawned := by simp
  have hspawned : w.id ∈ spawnedIds T := ha.mem_spawnedIds hmem (mem_repairChain.mpr (.inr rfl))
  by_cases hd : w.notBefore ≤ inp.now
  swap
  · cases h with
    | later => simpa [Punctual, or_assoc] using hp
    | _ => contradiction
  have hlooked : SrtBridge.lookedIds events = [w.id] := h.lookedIds.trans (if_pos hd)
  obtain ⟨rest, hevents, hrest⟩ := h.events_eq hd
  have hT : T ++ events = T ++ [lookEvent lib inp k w] ++ rest := by simp [hevents]
  refine ⟨fun id hid => ?_, fun v hv => ?_⟩
  · rw [lookedIds_append, hlooked, List.mem_append, List.mem_singleton] at hid
    rw [spawnedIds_append]
    apply List.mem_append_left
    rcases hid with hid | rfl
    · exact hp.1 id hid
    · exact hspawned
  rcases h.mem_origin hv with ⟨u, hu, hpass⟩ | hk | ⟨hs, hid⟩
  · have hu' : u ∈ seen ++ w :: unseen ++ spawned := by
      simp only [List.mem_append, List.mem_cons] at hu ⊢
      tauto
    have hne : w.id ≠ u.id := id_ne_of_nodup (ha.watchedIds_nodup (nodup_of_append hnew)) hu
    have hclock : Clocked (T ++ events) inp.now u := by
      rw [hT]
      exact ((hp.2 u hu').append (looksOf_lookEvent_ne hne)).append (hrest u.id)
    cases hpass with
    | same => exact hclock
    | handed => exact hclock.same rfl rfl
  · have hlook (hn : (lookAt lib inp k w).next ≠ .drop) :
        Clocked (T ++ events) inp.now (lookAt lib inp k w).member := by
      rw [hT]
      exact ((hp.2 w hmem).look hn).append (hrest _)
    cases hk with
    | later hl => exact absurd hd (not_le.mpr hl)
    | keep _ hn hk =>
      rw [hk]
      refine (hlook ?_).same rfl rfl
      rcases hn with hn | ⟨hn, -⟩ <;> simp [hn]
    | recheck _ hn => exact (hlook (by simp [hn])).same rfl rfl
  · -- a replacement has an id of its own, so nobody has looked at it
    refine .unlooked hs ?_
    rw [lookedIds_append, hlooked, List.mem_append, List.mem_singleton]
    rintro (hl | hw)
    · exact hp.unlooked hnew hid hl
    · rw [spawnedIds_append] at hnew
      exact (List.nodup_append'.mp hnew).2.2 hspawned (hw ▸ hid)

end Turn

/-- Every run that is given no id twice keeps the clocks, between its checks and at their turns. -/
theorem punctual_preserved (lib : Libsrt) (grp : SocketId) :
    Preserved lib grp (fun _ => True)
      (fun ws now k T => (Accounted ws k T ∧ ((spawnedIds T).Nodup → GraceKept ws T)) ∧
        ((spawnedIds T).Nodup → Punctual now ws T))
      (fun inp seen unseen spawned k T => (Accounted (seen ++ unseen ++ spawned) k T ∧
        ((spawnedIds T).Nodup → GraceKept (seen ++ unseen ++ spawned) T)) ∧
          ((spawnedIds T).Nodup → Punctual inp.now (seen ++ unseen ++ spawned) T)) := by
  have hg := graceKept_preserved lib grp
  have hlooked (k : ℕ) (members : List (GroupEndpoint × SocketId)) :
      lookedIds (spawnEvents k members) = [] := by
    simp [lookedIds, spawnEvents, MemberEvent.lookedId]
  refine
    { elapse := fun now d h => ⟨h.1, fun hn => ⟨(h.2 hn).1, fun w hw =>
        ((h.2 hn).2 w hw).later (Nat.le_add_right _ _)⟩⟩
      skip := fun now h => ⟨hg.skip now h.1, h.2⟩
      reorder := fun now hp h => ⟨hg.reorder now hp h.1, fun hn =>
        ⟨(h.2 hn).1, fun w hw => (h.2 hn).2 w (hp.mem_iff.mp hw)⟩⟩
      connect := fun {ws now k T endpoints} ho h hc => ⟨hg.connect ho h.1 hc, fun hn => ?_⟩
      add := fun {ws now k T endpoint member} ho h hm hc => ⟨hg.add ho h.1 hm hc, fun hn => ?_⟩
      begin := fun h hgrp hnow hr => ⟨hg.begin h.1 hgrp hnow hr, fun hn =>
        ⟨(h.2 hn).1, fun w hw => ?_⟩⟩
      turn := fun h he => ⟨hg.turn h.1 he, fun hn => he.punctual h.1.1 hn (h.2 (nodup_of_append hn))⟩
      finish := fun h => ⟨⟨h.1.1.later (by simp), by simpa using h.1.2⟩, by simpa using h.2⟩ }
  · refine (h.2 (nodup_of_append hn)).spawn (hlooked _ _) hn fun w hw => ?_
    obtain ⟨e, he, rfl⟩ := List.mem_map.mp hw
    refine ⟨rfl, ?_⟩
    rw [spawnedIds_spawnEvents]
    exact List.mem_map_of_mem he
  · refine (h.2 (nodup_of_append hn)).spawn rfl hn fun w hw => ?_
    obtain rfl := List.mem_singleton.mp hw
    exact ⟨rfl, List.mem_singleton_self _⟩
  · obtain ⟨v, hv, i, -, -, rfl⟩ := mem_readLive (by simpa using hw)
    rw [hnow]
    exact ((h.2 hn).2 v hv).same rfl rfl

/-- A group as `CreateGroup` leaves it satisfies what every run keeps. -/
theorem punctual_start (backup : Bool) : (GroupRun.start backup).Holds fun ws now k T =>
    (Accounted ws k T ∧ ((spawnedIds T).Nodup → GraceKept ws T)) ∧
      ((spawnedIds T).Nodup → Punctual now ws T) := by
  obtain ⟨hgroup, hkept⟩ := graceKept_start backup
  refine ⟨hgroup, hkept, fun _ => ⟨fun id hid => hid, fun w hw => ?_⟩⟩
  cases hw

section Decided

variable {lib : Libsrt} {inp : CheckInput} {k : ℕ} {w : WatchedMember}
  {seen unseen spawned seen' unseen' spawned' : List WatchedMember} {events T : List MemberEvent}

/-- A turn replaces a due member that the look chose to replace, unless it puts that off. -/
theorem Exit.replaces (h : Exit lib inp k seen w unseen spawned seen' unseen' spawned' events)
    (hd : w.notBefore ≤ inp.now) (hn : (lookAt lib inp k w).next = .repair)
    (hw : planAt lib inp k seen w unseen spawned ≠ .wait) :
    ∃ chain plan, .repair k w.id chain plan ∈ events := by
  have hevent (plan : RepairPlan) : .repair k w.id (repairChain w) plan ∈ repairEvents lib inp k w plan :=
    List.mem_append_right _ (List.mem_singleton_self _)
  cases h with
  | later hl => exact absurd hd (not_le.mpr hl)
  | keep _ hk =>
    rcases hk with hk | ⟨-, hwait⟩
    · rw [hk] at hn
      cases hn
    · exact absurd hwait hw
  | recheck _ hk | drop _ hk | abandon _ hk =>
    rw [hk] at hn
    cases hn
  | close => exact ⟨_, _, List.mem_append_left _ (hevent _)⟩
  | hand => exact ⟨_, _, hevent _⟩
  | closeSpawn => exact ⟨_, _, List.mem_append_left _ (List.mem_append_left _ (hevent _))⟩
  | overlap => exact ⟨_, _, List.mem_append_left _ (hevent _)⟩

/-- The record decides whether a turn replaces its member or puts that off. -/
theorem Exit.replaces_iff (h : Exit lib inp k seen w unseen spawned seen' unseen' spawned' events)
    (hd : w.notBefore ≤ inp.now) (hg : Graced T w) (hc : Clocked T inp.now w) :
    (∃ chain plan, .repair k w.id chain plan ∈ events) ∨
        (lookAt lib inp k w).next = .repair ∧ planAt lib inp k seen w unseen spawned = .wait ↔
      StrandedFor (T ++ events) w.id inp.now ∨
        (lookAt lib inp k w).verdict = .handshaking ∧ w.resolveBy ≤ inp.now ∧
          isTerminalStatus w.live = false := by
  have hnext : (∃ chain plan, .repair k w.id chain plan ∈ events) ∨
      (lookAt lib inp k w).next = .repair ∧ planAt lib inp k seen w unseen spawned = .wait ↔
        (lookAt lib inp k w).next = .repair := by
    constructor
    · rintro (⟨chain, plan, hr⟩ | hwait)
      · exact (h.repairs hr).2.2.1
      · exact hwait.1
    · intro hn
      by_cases hw : planAt lib inp k seen w unseen spawned = .wait
      · exact .inr ⟨hn, hw⟩
      · exact .inl (h.replaces hd hn hw)
  -- the turn's events hold the look at its member, and no other
  obtain ⟨rest, hevents, hrest⟩ := h.events_eq hd
  have hlooks : looksOf w.id (T ++ events) = looksOf w.id (T ++ [lookEvent lib inp k w]) := by
    rw [hevents, List.append_cons, looksOf_append, hrest, List.append_nil]
  rw [hnext, hg.repair_iff lib k hc]
  unfold StrandedFor
  rw [hlooks]

variable (lib inp) in
/-- A turn that puts the replacement of its member off does so for another one. -/
theorem waitsAt_iff {c : Check} (hw : c.watched[c.idx]? = some w) (hd : w.notBefore ≤ inp.now)
    (hc : c.watched = seen ++ w :: unseen) (hidx : c.idx = seen.length) :
    (∃ e, WaitsAt lib inp c w.checked e) ↔ (lookAt lib inp c.step w).next = .repair ∧
      planAt lib inp c.step seen w unseen c.spawned = .wait := by
  have hset : c.watched.set c.idx (lookAt lib inp c.step w).member =
      seen ++ (lookAt lib inp c.step w).member :: unseen := by
    rw [hc, hidx, General.set_append_cons]
  constructor
  · rintro ⟨e, u, hu, -⟩
    obtain rfl : u = w := Option.some.inj (hu.looked.symm.trans hw)
    have hplan := hu.wait
    rw [hset] at hplan
    exact ⟨hu.repair, hplan⟩
  · rintro ⟨hn, hwait⟩
    have hput : PutOff lib inp c w := ⟨hw, hd, hn, by rw [hset]; exact hwait⟩
    exact hput.waits

end Decided

/-- The record of the looks decides who is replaced, and when. In every run of a caller group that has been
given no id twice, at every turn of every check that comes to a due member: the turn replaces the member, or puts that off for
another one in its handshake or listed Broken on a live socket, exactly if the last looks at the member,
this one included, all read it stranded and go back over the grace, or this one finds it unresolved past
its deadline on a socket that is not dead. -/
theorem replaced_exactly_when (lib : Libsrt) (grp : SocketId) (backup : Bool)
    (actions : List GroupRun.Action) (n : ℕ) (w : WatchedMember) :
    let r := (GroupRun.start backup).run lib grp actions
    let inp := r.checkInput lib grp
    let c := r.turns lib grp n
    (spawnedIds c.trace).Nodup → c.watched[c.idx]? = some w → w.notBefore ≤ r.clock →
      ∃ events, (r.turns lib grp (n + 1)).trace = c.trace ++ events ∧
        ((∃ chain plan, .repair c.step w.id chain plan ∈ events) ∨ (∃ e, WaitsAt lib inp c w.checked e) ↔
          StrandedFor (c.trace ++ events) w.id r.clock ∨
            (lookAt lib inp c.step w).verdict = .handshaking ∧ w.resolveBy ≤ r.clock ∧
              isTerminalStatus w.live = false) := by
  intro r inp c hids hlooked hd
  have hpres := punctual_preserved lib grp
  have hrun : r.Holds _ := hpres.holds_run (by simp) (punctual_start backup)
  obtain ⟨seen, unseen, spawned, k, T, hc, ⟨-, hgrace⟩, hclock⟩ := hpres.holds_turns hrun n
  have hc : c = ⟨seen ++ unseen, seen.length, spawned, k, T⟩ := hc
  have hget : (seen ++ unseen)[seen.length]? = some w := by
    rw [hc] at hlooked
    exact hlooked
  rw [List.getElem?_append_right le_rfl, Nat.sub_self] at hget
  obtain ⟨rest, rfl⟩ : ∃ rest, unseen = w :: rest := by
    cases unseen with
    | nil => cases hget
    | cons x rest => exact ⟨rest, congrArg (· :: rest) (Option.some.inj hget)⟩
  obtain ⟨seen', unseen', spawned', events, he, hturn⟩ := checkTurn_exit lib inp k seen w rest spawned T
  have hnext : r.turns lib grp (n + 1) = checkTurn lib inp c := Function.iterate_succ_apply' ..
  refine ⟨events, by rw [hnext, hc, hturn], ?_⟩
  have hmem : w ∈ seen ++ w :: rest ++ spawned := by simp
  rw [hc] at hids
  have hdecides := he.replaces_iff hd ((hgrace hids).2 w hmem) ((hclock hids).2 w hmem)
  have hwaits := waitsAt_iff lib inp hlooked hd (congrArg Check.watched hc) (congrArg Check.idx hc)
  rw [hwaits, hc]
  exact hdecides

/-- A bond of one link, read stranded now and half a second ago: this look replaces the member. -/
theorem replaced_exactly_when_stranded :
    let ep : GroupEndpoint := ⟨.v4 0x7f000001 9000, none, 1, 7⟩
    let lib := Libsrt.scripted (fun _ => [⟨1, .connected, .pending, 1, 7⟩]) (fun _ _ => .connected)
    let r := (GroupRun.start false).run lib 5 [.connect [ep], .check, .elapse (fromMillis 500)]
    let c := r.turns lib 5 0
    ∃ (w : WatchedMember) (events : List MemberEvent), (r.turns lib 5 1).trace = c.trace ++ events ∧ w.id = 1 ∧
      (∃ chain plan, .repair c.step w.id chain plan ∈ events) ∧
        StrandedFor (c.trace ++ events) w.id r.clock := by
  intro ep lib r c
  have hlook : ∃ u ∈ c.watched[c.idx]?, u.notBefore ≤ r.clock ∧ u.id = 1 ∧
      (lookAt lib (r.checkInput lib 5) c.step u).verdict ≠ .handshaking := by decide +kernel
  have hrepair : ∃ e ∈ (r.turns lib 5 1).trace.drop c.trace.length,
      e = .repair c.step 1 [1] .spawnThenClose := by decide +kernel
  obtain ⟨w, hw, hd, hid, hv⟩ := hlook
  obtain ⟨events, htrace, hwhen⟩ := replaced_exactly_when lib 5 false
    [.connect [ep], .check, .elapse (fromMillis 500)] 0 w (by decide +kernel) hw hd
  obtain ⟨e, he, rfl⟩ := hrepair
  have htrace : (r.turns lib 5 1).trace = c.trace ++ events := htrace
  rw [htrace, List.drop_left] at he
  have hrep : ∃ chain plan, .repair c.step w.id chain plan ∈ events := ⟨_, _, hid ▸ he⟩
  exact ⟨w, events, htrace, hid, hrep, (hwhen.mp (.inl hrep)).resolve_right fun h => hv h.1⟩

end SrtBridge
