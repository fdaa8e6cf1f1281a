import SrtBridge.Members.Turns

/-! Whom a stranded member waits on. A member listed Broken waits on handshakes only, any other on
those and on Broken ones, and a handshake on nobody; so no members wait on each other, and a check
with nothing left to wait for replaces somebody. -/

namespace SrtBridge

/-- What a check holds fixed of a watched member. -/
structure CheckedMember where
  id : SocketId
  live : SocketStatus
  resolveBy : Instant

def WatchedMember.checked (w : WatchedMember) : CheckedMember := ⟨w.id, w.live, w.resolveBy⟩

namespace CheckedMember

def Handshaking (now : Instant) (m : CheckedMember) : Prop :=
  m.live ≠ .connected ∧ isTerminalStatus m.live = false ∧ now < m.resolveBy

def ListedBroken (rows : List GroupData) (m : CheckedMember) : Prop :=
  ∃ r ∈ rows, r.id = m.id ∧ mapMemberStatus r.memberstate = .broken

end CheckedMember

/-- The turn of `c` looks at `w`, due, and puts its replacement off. -/
structure PutOff (lib : Libsrt) (inp : CheckInput) (c : Check) (w : WatchedMember) : Prop where
  looked : c.watched[c.idx]? = some w
  due : w.notBefore ≤ inp.now
  repair : (lookAt lib inp c.step w).next = .repair
  wait : planRepair lib c.step (lookAt lib inp c.step w).member ((lookAt lib inp c.step w).verdict = .brokenLive)
    (c.watched.set c.idx (lookAt lib inp c.step w).member) c.spawned inp.rows inp.now = .wait

/-- The turn of `c` puts the replacement of `a` off for `e`: that is in its handshake, or listed
Broken on a connected socket while `a` is not. -/
def WaitsAt (lib : Libsrt) (inp : CheckInput) (c : Check) (a e : CheckedMember) : Prop :=
  ∃ w, PutOff lib inp c w ∧ w.checked = a ∧ ∃ v ∈ c.watched ++ c.spawned, v.checked = e ∧ v.id ∉ repairChain w ∧
    (e.Handshaking inp.now ∨ (lookAt lib inp c.step w).verdict ≠ .brokenLive ∧ e.ListedBroken inp.rows ∧
      ∃ j, lib.getsockstate c.step j e.id = .connected)

/-- In one of the turns of the check `a` waits on `e`. -/
def Waits (lib : Libsrt) (grp : SocketId) (r : GroupRun) (a e : CheckedMember) : Prop :=
  ∃ n, WaitsAt lib (r.checkInput lib grp) (r.turns lib grp n) a e

section Reasons

variable {lib : Libsrt} {k j : ℕ} {w : WatchedMember} {broken : Bool} {watched spawned : List WatchedMember}
  {rows : List GroupData} {now : Instant} {exclude : List SocketId} {members : List WatchedMember}

theorem repairPlan_wait {repairs : ℕ} {sibling : Option (SocketId × Bool)} {atPeer resolving : Bool}
    (h : repairPlan repairs sibling atPeer resolving = .wait) : resolving = true := by
  rcases sibling with _ | ⟨id, _ | _⟩ <;> simp only [repairPlan] at h
  · split_ifs at h; assumption
  · cases h
  · split_ifs at h; assumption

theorem exists_of_otherMemberHandshaking (h : otherMemberHandshaking members exclude now = true) :
    ∃ e ∈ members, e.id ∉ exclude ∧ e.checked.Handshaking now := by
  simp only [otherMemberHandshaking, List.any_eq_true, Bool.and_eq_true, decide_eq_true_eq,
    Bool.not_eq_true'] at h
  obtain ⟨e, he, ⟨⟨hid, hl⟩, ht⟩, hn⟩ := h
  exact ⟨e, he, hid, hl, ht, hn⟩

theorem exists_listed_of_otherMemberBrokenLive (h : otherMemberBrokenLive lib k j members rows exclude = true) :
    ∃ e ∈ members, e.id ∉ exclude ∧ e.checked.ListedBroken rows ∧ ∃ i, lib.getsockstate k i e.id = .connected := by
  simp only [otherMemberBrokenLive, List.any_eq_true, Bool.and_eq_true, decide_eq_true_eq] at h
  obtain ⟨⟨e, i⟩, hm, ⟨hid, r, hr, hrid, hb⟩, hc⟩ := h
  exact ⟨e, List.fst_mem_of_mem_zipIdx hm, hid, ⟨r, hr, hrid, hb⟩, j + i, hc⟩

/-- What a member waits for: a handshake, or, unless it is Broken itself, a Broken member. -/
theorem planRepair_wait (h : planRepair lib k w broken watched spawned rows now = .wait) :
    ∃ e ∈ watched ++ spawned, e.id ∉ repairChain w ∧ (e.checked.Handshaking now ∨ broken = false ∧
      e.checked.ListedBroken rows ∧ ∃ i, lib.getsockstate k i e.id = .connected) := by
  have hr := repairPlan_wait h
  simp only [weighOthers, Bool.or_eq_true, Bool.and_eq_true, Bool.not_eq_true'] at hr
  rcases hr with hh | ⟨hb, hl⟩
  · obtain ⟨e, he, hid, hs⟩ := exists_of_otherMemberHandshaking hh
    exact ⟨e, he, hid, .inl hs⟩
  · obtain ⟨e, he, hid, hs⟩ := exists_listed_of_otherMemberBrokenLive hl
    exact ⟨e, he, hid, .inr ⟨hb, hs⟩⟩

/-- With one row per member, what is listed Broken is read so. -/
theorem listedRow_of_listedBroken (hrows : (rows.map (·.id)).Nodup) (h : w.checked.ListedBroken rows) :
    ∃ listed, listedRow rows w.id = some (.broken, listed) := by
  obtain ⟨r, hr, hid, hb⟩ := h
  have hid : r.id = w.id := hid
  obtain ⟨r', hf⟩ : ∃ r', rows.find? (fun r => r.id = w.id) = some r' := by
    rw [← Option.isSome_iff_exists, List.find?_isSome]
    exact ⟨r, hr, by simpa using hid⟩
  have hid' : r'.id = w.id := by simpa using List.find?_some hf
  have hsame : r' = r :=
    List.inj_on_of_nodup_map hrows (List.mem_of_find?_eq_some hf) hr (hid'.trans hid.symm)
  refine ⟨rawStateToStatus r.sockstate, ?_⟩
  rw [listedRow, hf, Option.map_some, hsame, hb]

end Reasons

section Looks

variable {lib : Libsrt} {inp : CheckInput} {k : ℕ} {w : WatchedMember}

theorem verdict_of_listedBroken (lib : Libsrt) (k : ℕ) (hrows : (inp.rows.map (·.id)).Nodup)
    (h : w.checked.ListedBroken inp.rows) :
    (lookAt lib inp k w).verdict = if w.live = .connected then .brokenLive else .gone := by
  obtain ⟨listed, hl⟩ := listedRow_of_listedBroken hrows h
  rw [lookAt_verdict, hl, classifyWatched_broken]

/-- A member that is to be replaced is in no handshake inside its deadline. -/
theorem not_handshaking_of_repair (h : (lookAt lib inp k w).next = .repair) :
    ¬w.checked.Handshaking inp.now := by
  rintro ⟨hl, -, hn⟩
  rcases lookAt_repair h with ⟨hv, -⟩ | ⟨-, hr, -⟩
  · exact hl (live_of_stranded (lookAt_verdict lib inp k w ▸ hv))
  · exact absurd hn (not_lt.mpr hr)

/-- A member listed Broken that is to be replaced is read so. -/
theorem brokenLive_of_repair (hrows : (inp.rows.map (·.id)).Nodup) (h : (lookAt lib inp k w).next = .repair)
    (hb : w.checked.ListedBroken inp.rows) : (lookAt lib inp k w).verdict = .brokenLive := by
  have hv := verdict_of_listedBroken lib k hrows hb
  split_ifs at hv
  · exact hv
  · rcases lookAt_repair h with ⟨hv' | hv', -⟩ | ⟨hv', -⟩ <;> simp [hv] at hv'

end Looks

section Waits

variable {lib : Libsrt} {inp : CheckInput} {c : Check} {grp : SocketId} {r : GroupRun} {a e : CheckedMember}
  {w : WatchedMember}

theorem PutOff.waits (h : PutOff lib inp c w) : ∃ e, WaitsAt lib inp c w.checked e := by
  obtain ⟨v, hv, hid, hreason⟩ := planRepair_wait h.wait
  have hchain : v.id ∉ repairChain w := lookAt_repairChain h.repair ▸ hid
  -- `w` itself, as the look leaves it, is in its own chain
  have hmem : v ∈ c.watched ++ c.spawned := by
    rcases List.mem_append.mp hv with hv | hv
    · rcases List.mem_or_eq_of_mem_set hv with hv | rfl
      · exact List.mem_append_left _ hv
      · exact absurd (mem_repairChain.mpr (.inr (lookAt_id ..))) hchain
    · exact List.mem_append_right _ hv
  refine ⟨v.checked, w, h, rfl, v, hmem, rfl, hchain, hreason.imp_right ?_⟩
  rintro ⟨hb, hl⟩
  exact ⟨of_decide_eq_false hb, hl⟩

theorem WaitsAt.not_handshaking (h : WaitsAt lib inp c a e) : ¬a.Handshaking inp.now := by
  obtain ⟨w, hw, rfl, -⟩ := h
  exact not_handshaking_of_repair hw.repair

/-- A member is waited on in its handshake, or listed Broken. -/
theorem WaitsAt.target (h : WaitsAt lib inp c a e) : e.Handshaking inp.now ∨ e.ListedBroken inp.rows := by
  obtain ⟨w, -, -, v, -, -, -, hreason⟩ := h
  exact hreason.imp_right fun hb => hb.2.1

theorem WaitsAt.of_broken (hrows : (inp.rows.map (·.id)).Nodup) (h : WaitsAt lib inp c a e)
    (ha : a.ListedBroken inp.rows) : e.Handshaking inp.now := by
  obtain ⟨w, hw, rfl, v, -, -, -, hh | ⟨hb, -⟩⟩ := h
  · exact hh
  · exact absurd (brokenLive_of_repair hrows hw.repair ha) hb

open Classical in
/-- A handshake is waited on by Broken members and others, a Broken member by others only. -/
noncomputable def CheckedMember.rank (inp : CheckInput) (m : CheckedMember) : ℕ :=
  if m.Handshaking inp.now then 0 else if m.ListedBroken inp.rows then 1 else 2

theorem WaitsAt.rank_lt (hrows : (inp.rows.map (·.id)).Nodup) (h : WaitsAt lib inp c a e) :
    e.rank inp < a.rank inp := by
  unfold CheckedMember.rank
  rw [if_neg h.not_handshaking]
  by_cases ha : a.ListedBroken inp.rows
  · rw [if_pos (h.of_broken hrows ha), if_pos ha]
    exact Nat.zero_lt_one
  · rw [if_neg ha]
    rcases h.target with hh | hb
    · rw [if_pos hh]
      exact Nat.zero_lt_two
    · rw [if_pos hb]
      split_ifs
      · exact Nat.zero_lt_two
      · exact Nat.one_lt_two

theorem waits_wellFounded (hrows : ((r.checkInput lib grp).rows.map (·.id)).Nodup) :
    WellFounded fun e a => Waits lib grp r a e := by
  have hsub : Subrelation (fun e a => Waits lib grp r a e)
      (InvImage (· < ·) (CheckedMember.rank (r.checkInput lib grp))) := by
    rintro e a ⟨n, h⟩
    exact h.rank_lt hrows
  exact hsub.wf (InvImage.wf _ wellFounded_lt)

end Waits

/-- The events of a check that closes, replaces or hands over a member on a plan to repair it. -/
def Acts (events : List MemberEvent) : Prop :=
  ∃ k id chain plan, .repair k id chain plan ∈ events ∧ plan ≠ .wait ∧
    ((∃ i, .close k i ∈ events) ∨ (∃ new ep, .spawn k new ep ∈ events) ∨ ∃ other, plan = .handToSibling other)

/-- The sockets read again during the check are in the state they were in at its start, except
those that the check has closed. -/
def Rereads (lib : Libsrt) (grp : SocketId) (r : GroupRun) : Prop :=
  ∀ k, r.step ≤ k → k < (r.checkGroup lib grp).step → ∀ j, ∀ w ∈ (r.beginCheck lib).watched,
    lib.status k j w.id = w.live ∨ lib.status k j w.id ≠ .connected ∧
      ∃ k' < k, .close k' w.id ∈ (r.checkGroup lib grp).trace.drop r.trace.length

/-- No watched member is in a handshake inside its deadline, and each that is listed Broken on a
connected socket is due with its grace passed. -/
structure NothingToWaitFor (inp : CheckInput) (members : List WatchedMember) : Prop where
  resolved : ∀ w ∈ members, ¬w.checked.Handshaking inp.now
  graced : ∀ w ∈ members, w.live = .connected → w.checked.ListedBroken inp.rows →
    w.notBefore ≤ inp.now ∧ strandedMemberGrace ≤ inp.now - w.strandedSince.getD inp.now

/-- No replacement yet: nothing is spawned, the members to come are as they were, and those looked
at the same but for their clocks. -/
structure Quiet (members seen unseen spawned : List WatchedMember) : Prop where
  spawned_nil : spawned = []
  unseen_mem : ∀ v ∈ unseen, v ∈ members
  seen_mem : ∀ v ∈ seen, ∃ w ∈ members, v.checked = w.checked

section Progress

variable {lib : Libsrt} {inp : CheckInput} {k : ℕ} {seen : List WatchedMember} {w : WatchedMember}
  {unseen spawned seen' unseen' spawned' members : List WatchedMember} {events events' : List MemberEvent}

theorem Acts.append (h : Acts events) : Acts (events ++ events') := by
  obtain ⟨k, id, chain, plan, hr, hp, hact⟩ := h
  refine ⟨k, id, chain, plan, List.mem_append_left _ hr, hp, ?_⟩
  rcases hact with ⟨i, hi⟩ | ⟨new, ep, hs⟩ | hh
  · exact .inl ⟨i, List.mem_append_left _ hi⟩
  · exact .inr (.inl ⟨new, ep, List.mem_append_left _ hs⟩)
  · exact .inr (.inr hh)

theorem Acts.append_right (h : Acts events') : Acts (events ++ events') := by
  obtain ⟨k, id, chain, plan, hr, hp, hact⟩ := h
  refine ⟨k, id, chain, plan, List.mem_append_right _ hr, hp, ?_⟩
  rcases hact with ⟨i, hi⟩ | ⟨new, ep, hs⟩ | hh
  · exact .inl ⟨i, List.mem_append_right _ hi⟩
  · exact .inr (.inl ⟨new, ep, List.mem_append_right _ hs⟩)
  · exact .inr (.inr hh)

/-- A turn acts if it comes to a plan other than waiting, and is quiet otherwise. -/
theorem Exit.acts_or_quiet (h : Exit lib inp k seen w unseen spawned seen' unseen' spawned' events) :
    Acts events ∨ spawned' = spawned ∧ unseen'.Perm unseen ∧ (∀ v ∈ seen', v ∈ seen ∨ v.checked = w.checked) ∧
      (w.notBefore ≤ inp.now → (lookAt lib inp k w).next = .repair →
        planAt lib inp k seen w unseen spawned = .wait) := by
  have hkept {v' : WatchedMember} (hv' : v'.checked = w.checked) :
      ∀ v ∈ seen ++ [v'], v ∈ seen ∨ v.checked = w.checked := by
    intro v hv
    rcases List.mem_append.mp hv with hv | hv
    · exact .inl hv
    · rw [List.mem_singleton.mp hv]
      exact .inr hv'
  have hlook : (lookAt lib inp k w).member.checked = w.checked := by
    rw [WatchedMember.checked, lookAt_id, lookAt_live, lookAt_resolveBy, WatchedMember.checked]
  have hrest := General.lastToFront_perm unseen
  have hmem : w.id ∈ repairChain w := mem_repairChain.mpr (.inr rfl)
  cases h with
  | later hl => exact .inr ⟨rfl, .refl _, hkept rfl, fun hd => absurd hd (not_le.mpr hl)⟩
  | keep _ hn hv =>
    refine .inr ⟨rfl, .refl _, hkept (by rw [hv]; exact hlook), fun _ hr => ?_⟩
    rcases hn with hn | ⟨-, hp⟩
    · rw [hr] at hn
      cases hn
    · exact hp
  | recheck _ hn =>
    refine .inr ⟨rfl, .refl _, hkept hlook, fun _ hr => ?_⟩
    rw [hr] at hn
    cases hn
  | drop _ hn | abandon _ hn =>
    refine .inr ⟨rfl, hrest, fun v hv => .inl hv, fun _ hr => ?_⟩
    rw [hr] at hn
    cases hn
  | @close plan _ _ _ hw =>
    refine .inl ⟨k, w.id, repairChain w, plan, ?_, hw, .inl ⟨w.id, ?_⟩⟩
    · exact List.mem_append_left _ (List.mem_append_right _ (List.mem_singleton_self _))
    · exact List.mem_append_right _ (mem_closeMembers.mpr ⟨rfl, hmem⟩)
  | @hand other =>
    refine .inl ⟨k, w.id, repairChain w, .handToSibling other, ?_, nofun, .inr (.inr ⟨other, rfl⟩)⟩
    exact List.mem_append_right _ (List.mem_singleton_self _)
  | closeSpawn =>
    refine .inl ⟨k, w.id, repairChain w, .closeThenSpawn, ?_, nofun, .inl ⟨w.id, ?_⟩⟩
    · exact List.mem_append_left _ (List.mem_append_left _ (List.mem_append_right _ (List.mem_singleton_self _)))
    · exact List.mem_append_left _ (List.mem_append_right _ (mem_closeMembers.mpr ⟨rfl, hmem⟩))
  | @overlap new =>
    refine .inl ⟨k, w.id, repairChain w, .spawnThenClose, ?_, nofun, .inr (.inl ⟨new, w.endpoint, ?_⟩)⟩
    · exact List.mem_append_left _ (List.mem_append_right _ (List.mem_singleton_self _))
    · exact List.mem_append_right _ (List.mem_singleton_self _)

/-- A member to be replaced is, where nobody is in a handshake and it is Broken or nobody else is. -/
theorem plan_ne_wait (hq : Quiet members seen (w :: unseen) spawned)
    (hr : (lookAt lib inp k w).next = .repair) (hh : ∀ v ∈ members, ¬v.checked.Handshaking inp.now)
    (hb : (lookAt lib inp k w).verdict ≠ .brokenLive → ∀ v ∈ members, v.checked.ListedBroken inp.rows →
      ∀ j, lib.getsockstate k j v.id ≠ .connected) :
    planAt lib inp k seen w unseen spawned ≠ .wait := by
  intro hwait
  obtain ⟨v, hv, hid, hreason⟩ := planRepair_wait hwait
  have hchain : v.id ∉ repairChain w := lookAt_repairChain hr ▸ hid
  obtain ⟨u, hu, hsame⟩ : ∃ u ∈ members, v.checked = u.checked := by
    rw [hq.spawned_nil, List.append_nil, List.mem_append, List.mem_cons] at hv
    rcases hv with hv | rfl | hv
    · exact hq.seen_mem v hv
    · exact absurd (mem_repairChain.mpr (.inr (lookAt_id ..))) hchain
    · exact ⟨v, hq.unseen_mem v (List.mem_cons_of_mem _ hv), rfl⟩
  rcases hreason with hs | ⟨hnb, hl, i, hc⟩
  · exact hh u hu (hsame ▸ hs)
  · have huid : v.id = u.id := congrArg CheckedMember.id hsame
    exact hb (of_decide_eq_false hnb) u hu (hsame ▸ hl) i (huid ▸ hc)

theorem Quiet.turn (hq : Quiet members seen (w :: unseen) spawned)
    (h : spawned' = spawned ∧ unseen'.Perm unseen ∧ ∀ v ∈ seen', v ∈ seen ∨ v.checked = w.checked) :
    Quiet members seen' unseen' spawned' where
  spawned_nil := h.1.trans hq.spawned_nil
  unseen_mem v hv := hq.unseen_mem v (List.mem_cons_of_mem _ (h.2.1.mem_iff.mp hv))
  seen_mem v hv := by
    rcases h.2.2 v hv with hv | hs
    · exact hq.seen_mem v hv
    · exact ⟨w, hq.unseen_mem w List.mem_cons_self, hs⟩

end Progress

section Check

variable {lib : Libsrt} {grp : SocketId} {r : GroupRun}

/-- Whether a member is to be replaced does not depend on the step it is looked at in. -/
theorem lookAt_repair_step {inp : CheckInput} {w : WatchedMember} {k : ℕ}
    (h : (lookAt lib inp k w).next = .repair) (k' : ℕ) : (lookAt lib inp k' w).next = .repair := by
  obtain ⟨c, s, -, hn, -⟩ := lookAt_cases lib inp k' w
  have hsame : (lookAt lib inp k' w).verdict = (lookAt lib inp k w).verdict := rfl
  rw [hn, hsame]
  rcases lookAt_repair h with ⟨hv | hv, hg⟩ | ⟨hv, hr, ht⟩
  · rw [hv]
    exact if_pos hg
  · rw [hv]
    exact if_pos hg
  · rw [hv, nextStep]
    simp [not_lt.mpr hr, ht]

/-- The steps of a check: one for each live state, one for the listing, one for each turn, and one
for the group's own state. -/
theorem checkGroup_step (lib : Libsrt) (grp : SocketId)
    (h : r.entry.watched.any (fun w => w.notBefore ≤ r.clock) = true) :
    (r.checkGroup lib grp).step = r.step + 2 * r.entry.watched.length + 2 := by
  have hstep : (checkLoop lib (r.checkInput lib grp) r.entry.watched.length (r.beginCheck lib)).step =
      r.step + r.entry.watched.length + 1 + r.entry.watched.length :=
    checkLoop_step (length_readLive ..) _ _
  rw [GroupRun.checkGroup, if_pos h]
  show (checkLoop lib (r.checkInput lib grp) _ (r.beginCheck lib)).step + 1 = _
  rw [hstep]
  omega

/-- A member that is due and to be replaced, and Broken unless nobody is, is replaced in the check,
or another is. -/
theorem checkGroup_acts (h : r.entry.watched.any (fun w => w.notBefore ≤ r.clock) = true)
    (hreread : Rereads lib grp r) (hwait : NothingToWaitFor (r.checkInput lib grp) (r.beginCheck lib).watched)
    {m : WatchedMember} (hm : m ∈ (r.beginCheck lib).watched) (hd : m.notBefore ≤ r.clock)
    (hr : ∀ k, (lookAt lib (r.checkInput lib grp) k m).next = .repair)
    (hb : (∀ k, (lookAt lib (r.checkInput lib grp) k m).verdict = .brokenLive) ∨
      ∀ v ∈ (r.beginCheck lib).watched, v.live = .connected →
        ¬v.checked.ListedBroken (r.checkInput lib grp).rows) :
    ∃ events, (r.checkGroup lib grp).trace = r.trace ++ events ∧ Acts events := by
  have hlen : (r.beginCheck lib).watched.length = r.entry.watched.length := length_readLive ..
  set members := (r.beginCheck lib).watched with hmembers
  have hturn (seen : List WatchedMember) (w : WatchedMember) (unseen spawned : List WatchedMember) (k : ℕ)
      (T : List MemberEvent) (seen' unseen' spawned' : List WatchedMember) (events' : List MemberEvent)
      (hP : ∃ events, T = r.trace ++ events ∧ r.step ≤ k ∧
        k + (w :: unseen).length = r.step + 2 * members.length + 1 ∧
          (Acts events ∨ Quiet members seen (w :: unseen) spawned ∧ m ∈ w :: unseen))
      (he : Exit lib (r.checkInput lib grp) k seen w unseen spawned seen' unseen' spawned' events') :
      ∃ events, T ++ events' = r.trace ++ events ∧ r.step ≤ k + 1 ∧
        k + 1 + unseen'.length = r.step + 2 * members.length + 1 ∧
          (Acts events ∨ Quiet members seen' unseen' spawned' ∧ m ∈ unseen') := by
    obtain ⟨events, rfl, hk, hleft, hact⟩ := hP
    have hunseen := he.unseen_length
    rw [List.length_cons] at hleft
    refine ⟨events ++ events', List.append_assoc .., by omega, by omega, ?_⟩
    rcases hact with hact | ⟨hq, hmem⟩
    · exact .inl hact.append
    rcases he.acts_or_quiet with hact | ⟨hsp, hperm, hseen, hplan⟩
    · exact .inl hact.append_right
    refine .inr ⟨hq.turn ⟨hsp, hperm, hseen⟩, ?_⟩
    rcases List.mem_cons.mp hmem with rfl | hmem
    · -- the turn of `m` itself would not be quiet
      have hbroken (hv : (lookAt lib (r.checkInput lib grp) k m).verdict ≠ .brokenLive) (v : WatchedMember)
          (hvm : v ∈ members) (hl : v.checked.ListedBroken (r.checkInput lib grp).rows) (j : ℕ) :
          lib.getsockstate k j v.id ≠ .connected := by
        intro hc
        have hconn : lib.status k j v.id = .connected := rawStateToStatus_eq_connected.mpr hc
        have hlive : v.live = .connected := by
          have hlast : k < (r.checkGroup lib grp).step := by
            rw [checkGroup_step lib grp h, ← hlen]
            omega
          rcases hreread k hk hlast j v hvm with hs | ⟨hn, -⟩
          · exact hs.symm.trans hconn
          · exact absurd hconn hn
        rcases hb with hb | hb
        · exact hv (hb k)
        · exact hb v hvm hlive hl
      exact absurd (hplan hd (hr k)) (plan_ne_wait hq (hr k) hwait.resolved hbroken)
    · exact hperm.mem_iff.mpr hmem
  obtain ⟨ws, spawned, k, T, hc, events, hT, -, -, hact⟩ := checkLoop_induction
    (P := fun seen unseen spawned k T => ∃ events, T = r.trace ++ events ∧ r.step ≤ k ∧
      k + unseen.length = r.step + 2 * members.length + 1 ∧
        (Acts events ∨ Quiet members seen unseen spawned ∧ m ∈ unseen))
    hturn r.entry.watched.length [] members [] (r.step + r.entry.watched.length + 1) r.trace hlen
    ⟨[], (List.append_nil _).symm, by omega, by omega, .inr ⟨⟨rfl, fun v hv => hv, fun v hv => by cases hv⟩, hm⟩⟩
  have htrace : (r.checkGroup lib grp).trace = T := by
    rw [(GroupRun.checkGroup_turns lib grp h).1, GroupRun.turns, ← checkLoop_eq_iterate]
    exact congrArg Check.trace hc
  rcases hact with hact | ⟨-, hnone⟩
  · exact ⟨events, htrace.trans hT, hact⟩
  · cases hnone

/-- The member looked at after some turns is one of those the check began with, as it was, or some
member has been replaced by then; and it is no earlier or later due than one of those. -/
theorem turns_looked {n : ℕ} {u : WatchedMember}
    (hu : (r.turns lib grp n).watched[(r.turns lib grp n).idx]? = some u) :
    u.key ∈ (r.beginCheck lib).watched.map WatchedMember.key ∧
      ∃ events, (r.turns lib grp n).trace = r.trace ++ events ∧ (Acts events ∨ u ∈ (r.beginCheck lib).watched) := by
  set members := (r.beginCheck lib).watched with hmembers
  have hturn {seen : List WatchedMember} {w : WatchedMember} {unseen spawned : List WatchedMember} {k : ℕ}
      {T : List MemberEvent} {seen' unseen' spawned' : List WatchedMember} {events' : List MemberEvent}
      (hP : (∀ v ∈ w :: unseen, v.key ∈ members.map WatchedMember.key) ∧
        ∃ events, T = r.trace ++ events ∧ (Acts events ∨ Quiet members seen (w :: unseen) spawned))
      (he : Exit lib (r.checkInput lib grp) k seen w unseen spawned seen' unseen' spawned' events') :
      (∀ v ∈ unseen', v.key ∈ members.map WatchedMember.key) ∧
        ∃ events, T ++ events' = r.trace ++ events ∧ (Acts events ∨ Quiet members seen' unseen' spawned') := by
    obtain ⟨hkeys, events, rfl, hact⟩ := hP
    refine ⟨fun v hv => ?_, events ++ events', List.append_assoc .., ?_⟩
    · obtain ⟨x, hx, hkey⟩ := List.mem_map.mp (he.unseen_keys.mem_iff.mp (List.mem_map_of_mem hv))
      rw [← hkey]
      exact hkeys x (List.mem_cons_of_mem _ hx)
    rcases hact with hact | hq
    · exact .inl hact.append
    rcases he.acts_or_quiet with hact | ⟨hsp, hperm, hseen, -⟩
    · exact .inl hact.append_right
    · exact .inr (hq.turn ⟨hsp, hperm, hseen⟩)
  have hquiet : Quiet members [] members [] := ⟨rfl, fun v hv => hv, fun v hv => by cases hv⟩
  obtain ⟨seen, unseen, spawned, k, T, hc, -, hkeys, events, hT, hact⟩ := turns_induction
    (P := fun seen unseen spawned _ T => (∀ v ∈ unseen, v.key ∈ members.map WatchedMember.key) ∧
      ∃ events, T = r.trace ++ events ∧ (Acts events ∨ Quiet members seen unseen spawned)) (fun _ _ => hturn)
    ⟨fun v hv => List.mem_map_of_mem hv, [], (List.append_nil _).symm, .inr hquiet⟩ n
  have hc : r.turns lib grp n = ⟨seen ++ unseen, seen.length, spawned, k, T⟩ := hc
  rw [hc] at hu ⊢
  have hhead : u ∈ unseen := by
    have hget : (seen ++ unseen)[seen.length]? = some u := hu
    rw [List.getElem?_append_right le_rfl] at hget
    exact List.mem_of_getElem? hget
  exact ⟨hkeys u hhead, events, hT, hact.imp_right fun hq => hq.unseen_mem u hhead⟩

end Check

/-- No check is stuck. A member that is put off waits on another. And if the listing has one row to a
member (one listed twice, Broken and not, could be waited on and be let go as up): where a check comes to
a due member that is to be replaced, with sockets that read as they did at its start unless it closed them,
no handshake inside its deadline, and every Broken member due with its grace passed, some member is closed,
replaced or handed over on a plan other than waiting; and nobody waits in a circle, as a member waits on a
handshake inside its deadline, which waits on nobody, or on a Broken member, which waits on such handshakes
only. -/
theorem check_never_stuck (lib : Libsrt) (grp : SocketId) (r : GroupRun) :
    (∀ n w, PutOff lib (r.checkInput lib grp) (r.turns lib grp n) w → ∃ e, Waits lib grp r w.checked e) ∧
    (((r.checkInput lib grp).rows.map (·.id)).Nodup →
      (∀ n u, (r.turns lib grp n).watched[(r.turns lib grp n).idx]? = some u → u.notBefore ≤ r.clock →
        (lookAt lib (r.checkInput lib grp) (r.turns lib grp n).step u).next = .repair → Rereads lib grp r →
          NothingToWaitFor (r.checkInput lib grp) (r.beginCheck lib).watched →
            ∃ events, (r.checkGroup lib grp).trace = r.trace ++ events ∧ Acts events) ∧
        (WellFounded fun e a => Waits lib grp r a e) ∧ (∀ a, ¬Relation.TransGen (Waits lib grp r) a a) ∧
          ∀ a e, Waits lib grp r a e →
            e.Handshaking r.clock ∧ (∀ e', ¬Waits lib grp r e e') ∨
              e.ListedBroken (r.checkInput lib grp).rows ∧ ∀ e', Waits lib grp r e e' → e'.Handshaking r.clock) := by
  refine ⟨fun n w hw => ?_, fun hrows => ?_⟩
  · obtain ⟨e, he⟩ := hw.waits
    exact ⟨e, n, he⟩
  have hwf := waits_wellFounded hrows
  refine ⟨fun n u hu hd hrep hreread hwait => ?_, hwf, fun a ha => ?_, fun a e ha => ?_⟩
  · obtain ⟨hkey, events, hT, hact⟩ := turns_looked hu
    have hany : r.entry.watched.any (fun w => w.notBefore ≤ r.clock) = true := by
      have hkeys : u.key ∈ r.entry.watched.map WatchedMember.key := readLive_keys lib r.step _ ▸ hkey
      obtain ⟨x, hx, hxu⟩ := List.mem_map.mp hkeys
      have hdue : x.notBefore = u.notBefore := congrArg Prod.snd hxu
      exact List.any_eq_true.mpr ⟨x, hx, decide_eq_true (hdue ▸ hd)⟩
    rcases hact with hact | hmem
    · obtain ⟨rest, hrest⟩ := GroupRun.turns_kept lib grp hany n
      exact ⟨events ++ rest, by rw [← hrest, hT, List.append_assoc], hact.append⟩
    · by_cases hbroken : ∃ v ∈ (r.beginCheck lib).watched, v.live = .connected ∧
          v.checked.ListedBroken (r.checkInput lib grp).rows
      · obtain ⟨v, hv, hlive, hl⟩ := hbroken
        obtain ⟨hvd, hgrace⟩ := hwait.graced v hv hlive hl
        have hverdict (k : ℕ) : (lookAt lib (r.checkInput lib grp) k v).verdict = .brokenLive :=
          (verdict_of_listedBroken lib k hrows hl).trans (if_pos hlive)
        refine checkGroup_acts hany hreread hwait hv hvd (fun k => ?_) (.inl hverdict)
        obtain ⟨c, s, -, hn, -⟩ := lookAt_cases lib (r.checkInput lib grp) k v
        rw [hn, hverdict k]
        exact if_pos hgrace
      · refine checkGroup_acts hany hreread hwait hmem hd (lookAt_repair_step hrep) (.inr fun v hv hlive hl => ?_)
        exact hbroken ⟨v, hv, hlive, hl⟩
  · have hback := Relation.transGen_swap.mp ha
    exact hwf.transGen.asymmetric a a hback hback
  · obtain ⟨n, h⟩ := ha
    rcases h.target with hh | hb
    · refine .inl ⟨hh, ?_⟩
      rintro e' ⟨n', h'⟩
      exact h'.not_handshaking hh
    · refine .inr ⟨hb, ?_⟩
      rintro e' ⟨n', h'⟩
      exact h'.of_broken hrows hb

/-- Two members, both listed Broken on connected sockets past their grace, do not wait on each other. -/
theorem check_never_stuck_broken :
    let ep : GroupEndpoint := ⟨.v4 0x7f000001 9000, none, 1, 7⟩
    let lib := Libsrt.scripted (fun _ => [⟨1, .broken, .broken, 1, 7⟩, ⟨2, .broken, .broken, 1, 8⟩])
      (fun _ _ => .connected)
    let r := (GroupRun.start false).run lib 5
      [.connect [ep], .connect [{ ep with token := 8 }], .check, .elapse (fromMillis 500)]
    ∃ events, (r.checkGroup lib 5).trace = r.trace ++ events ∧ Acts events := by
  intro ep lib r
  have hlive : ∀ w ∈ (r.beginCheck lib).watched, w.live = .connected := by decide +kernel
  have hgrace : ∀ w ∈ (r.beginCheck lib).watched, w.notBefore ≤ (r.checkInput lib 5).now ∧
      strandedMemberGrace ≤ (r.checkInput lib 5).now - w.strandedSince.getD (r.checkInput lib 5).now := by
    decide +kernel
  have hlook : ∃ u ∈ (r.turns lib 5 0).watched[(r.turns lib 5 0).idx]?, u.notBefore ≤ r.clock ∧
      (lookAt lib (r.checkInput lib 5) (r.turns lib 5 0).step u).next = .repair := by decide +kernel
  obtain ⟨u, hu, hd, hrep⟩ := hlook
  have hreread : Rereads lib 5 r := fun _ _ _ _ w hw => .inl (hlive w hw).symm
  refine ((check_never_stuck lib 5 r).2 (by decide)).1 0 u hu hd hrep hreread ⟨fun w hw hh => ?_, fun w hw _ _ => hgrace w hw⟩
  exact hh.1 (hlive w hw)

end SrtBridge
