import SrtBridge.Bridge.Command
import SrtBridge.Members.Ledger

/-! Whether a member was spawned, as the three callers of `connect_group` tell it.
An added member and a replacement are judged by the member's own result;
`ConnectGroup` by libsrt's refusal of the call as a whole, which need not agree with
what is left in the group. -/

namespace SrtBridge

/-- A member is left in the group by the connect call of step `k`: a target came back
with an id and no error code, or with neither, and a new member with its token is listed. -/
def MemberLeft (lib : Libsrt) (k j : ℕ) (grp : SocketId) (endpoints : List GroupEndpoint) : Prop :=
  ∃ t ∈ connectTargets lib k grp endpoints, 0 ≤ t.id ∧ t.errorcode = 0 ∨
    (t.id < 0 ∧ t.errorcode = 0) ∧ ∃ r ∈ readGroupRows lib k (j + 1) grp,
      r.token = t.token ∧ r.id ∉ (readGroupRows lib k j grp).map (·.id)

section MemberLeft

variable {lib : Libsrt} {k j : ℕ} {grp : SocketId} {endpoints : List GroupEndpoint}

theorem GroupConfig.result_ok {t : GroupConfig} :
    (∃ id, t.result = .ok id) ↔ 0 ≤ t.id ∧ t.errorcode = 0 := by
  unfold GroupConfig.result
  split_ifs with h h' <;> simp_all

/-- A claim pass ends with a member exactly when it begins with one or finds one. -/
theorem exists_claimKept {rows : List GroupData} {before claimed : List SocketId}
    {ts : List GroupConfig} :
    (∃ id, .ok id ∈ claimKept rows before claimed (ts.map fun t => (t, t.result))) ↔
      ∃ t ∈ ts, (∃ id, t.result = .ok id) ∨ t.unreported = true ∧
        ∃ r ∈ rows, r.token = t.token ∧ r.id ∉ before ∧ r.id ∉ claimed := by
  induction ts with
  | nil => simp [claimKept]
  | cons t ts ih =>
    simp only [List.map_cons, claimKept, List.exists_mem_cons_iff]
    have hrest (m : Except SrtError SocketId) :
        (∃ id, .ok id ∈ m :: claimKept rows before claimed (ts.map fun t => (t, t.result))) ↔
          (∃ id, m = .ok id) ∨ ∃ id, .ok id ∈
            claimKept rows before claimed (ts.map fun t => (t, t.result)) := by
      simp only [List.mem_cons, exists_or]
      exact or_congr_left (exists_congr fun _ => eq_comm)
    split_ifs with h
    · have hn : ¬t.unreported = true := by
        rwa [GroupConfig.unreported_iff, not_and_or, not_lt]
      rw [hrest, ih]
      simp only [hn, Bool.false_eq_true, false_and, or_false]
    · have hu : t.unreported = true := by
        rwa [not_or, not_le, not_not, ← GroupConfig.unreported_iff] at h
      split
      · rename_i r hr
        have hp := List.find?_some hr
        rw [decide_eq_true_eq] at hp
        exact iff_of_true ⟨r.id, List.mem_cons_self ..⟩
          (.inl (.inr ⟨hu, r, List.mem_of_find?_eq_some hr, hp⟩))
      · rename_i hr
        have hno : ¬∃ r ∈ rows, r.token = t.token ∧ r.id ∉ before ∧ r.id ∉ claimed := by
          simpa using hr
        rw [hrest, ih]
        simp only [hno, and_false, or_false]

/-- A result of the call is a member exactly when one is left in the group. -/
theorem exists_ok_iff (he : endpoints ≠ []) :
    (∃ m, .ok m ∈ (connectGroup lib k j grp endpoints).members) ↔
      MemberLeft lib k j grp endpoints := by
  simp only [connectGroup, he, if_false, connectMembers, MemberLeft]
  have hreported : (∃ m, .ok m ∈ (connectTargets lib k grp endpoints).map GroupConfig.result) ↔
      ∃ t ∈ connectTargets lib k grp endpoints, ∃ id, t.result = .ok id := by
    simp only [List.mem_map]
    constructor
    · rintro ⟨m, t, ht, hm⟩
      exact ⟨t, ht, m, hm⟩
    · rintro ⟨t, ht, m, hm⟩
      exact ⟨m, t, ht, hm⟩
  simp only [← GroupConfig.result_ok, ← GroupConfig.unreported_iff]
  split_ifs with hany
  · have hzip : (connectTargets lib k grp endpoints).zip
        ((connectTargets lib k grp endpoints).map GroupConfig.result) =
          (connectTargets lib k grp endpoints).map fun t => (t, t.result) := by
      simpa using List.zip_map' (f := id) (g := GroupConfig.result)
        (l := connectTargets lib k grp endpoints)
    rw [hzip, exists_claimKept]
    constructor
    · rintro ⟨t, ht, h | ⟨hu, r, hr, h₁, h₂, -⟩⟩
      · exact ⟨t, ht, .inl h⟩
      · exact ⟨t, ht, .inr ⟨hu, r, hr, h₁, h₂⟩⟩
    · rintro ⟨t, ht, h | ⟨hu, r, hr, h₁, h₂⟩⟩
      · exact ⟨t, ht, .inl h⟩
      · -- a row a target already reported is claimed, but then there is a member anyway
        by_cases hc : r.id ∈
            ((connectTargets lib k grp endpoints).map GroupConfig.result).filterMap okId
        · obtain ⟨m, hm, hid⟩ := List.mem_filterMap.mp hc
          cases m with
          | error err => cases hid
          | ok m =>
            obtain ⟨t', ht', h'⟩ := hreported.mp ⟨m, hm⟩
            exact ⟨t', ht', .inl h'⟩
        · exact ⟨t, ht, .inr ⟨hu, r, hr, h₁, h₂, hc⟩⟩
  · rw [hreported]
    constructor
    · rintro ⟨t, ht, h⟩
      exact ⟨t, ht, .inl h⟩
    · rintro ⟨t, ht, h | ⟨hu, -⟩⟩
      · exact ⟨t, ht, h⟩
      · exact absurd (List.any_eq_true.mpr ⟨t, ht, hu⟩) hany

theorem connectGroup_members_one (lib : Libsrt) (k j : ℕ) (grp : SocketId) (ep : GroupEndpoint) :
    ∃ m, (connectGroup lib k j grp [ep]).members = [m] :=
  List.length_eq_one_iff.mp (connectGroup_length lib k j grp [ep])

/-- The single result is a member exactly when the only result is. -/
theorem single_ok_iff {ep : GroupEndpoint} {m : SocketId} :
    (connectGroup lib k j grp [ep]).single = .ok m ↔
      (connectGroup lib k j grp [ep]).members = [.ok m] := by
  obtain ⟨x, hx⟩ := connectGroup_members_one lib k j grp ep
  rw [hx]
  unfold GroupConnect.single
  rw [hx]
  cases x with
  | ok m' => simp
  | error err => cases (connectGroup lib k j grp [ep]).refused <;> simp

theorem connectRefused_isSome (he : endpoints ≠ []) :
    (connectGroup lib k j grp endpoints).refused.isSome ↔
      (lib.connectGroup k grp (endpoints.map prepareTarget)).1 < 0 := by
  simp only [connectGroup, he, if_false, connectRefused]
  split_ifs with h
  · split <;> simp [h]
  · simp [h]

end MemberLeft

namespace Bridge

/-- The last thing done is this answer. -/
def Answered (b : Bridge) (reply : ReplyId) (r : Except SrtError Unit) : Prop :=
  b.trace.getLast? = some (.answered reply (.done r))

section Answered

variable {b : Bridge} {reply : ReplyId} {r r' : Except SrtError Unit}

theorem answered_answer : (b.answer reply (.done r)).Answered reply r := by
  simp [Answered, answer, emit]

theorem Answered.unique (h : b.Answered reply r) (h' : b.Answered reply r') : r = r' := by
  have he := h.symm.trans h'
  simpa using he

end Answered

end Bridge

/-- The members watched in an entry come to be those before and `members`. -/
def Watches (before after : Option SocketState) (members : List SocketId) : Prop :=
  ∀ s, before = some s → s.isGroup = true →
    ∃ s', after = some s' ∧ watchedIds s'.watched = watchedIds s.watched ++ members

open Bridge in
/-- A caller of `connect_group` that answers its command fails exactly when none of the
results is a member, and otherwise succeeds and watches every member. -/
structure Agrees (members : List (Except SrtError SocketId)) (reply : ReplyId) (before after : Bridge)
    (id : SocketId) : Prop where
  fails : (∃ err, after.Answered reply (.error err)) ↔ ∀ m, .ok m ∉ members
  succeeds : (∃ m, .ok m ∈ members) → after.Answered reply (.ok ())
  watches : (∃ m, .ok m ∈ members) →
    Watches (before.entry id) (after.entry id) (members.filterMap okId)

def AddConnects (lib : Libsrt) (b : Bridge) (id : SocketId) (ep : GroupEndpoint) : Prop :=
  (∃ s, b.entry id = some s ∧ s.isGroup = true ∧ isTerminalStatus s.lastStatus = false) ∧
    lib.getsockstate b.step 0 id = .connected ∧
    memberInFlight lib b.step 1 (readGroupRows lib b.step 0 id) ep.token [] = none

/-- The three callers agree on success, at one moment of the bridge. -/
structure AgreeOnSuccess (lib : Libsrt) (b : Bridge) (id : SocketId) (endpoints : List GroupEndpoint)
    (reply : ReplyId) : Prop where
  connect : Agrees (connectGroup lib b.step 0 id endpoints).members reply b
    (b.connectGroup lib id endpoints reply) id
  /-- A `ConnectGroup` of one endpoint goes by the single result. -/
  single : ∀ ep, endpoints = [ep] → ((b.connectGroup lib id endpoints reply).Answered reply (.ok ()) ↔
    ∃ m, (connectGroup lib b.step 0 id endpoints).single = .ok m)
  add : ∀ ep, AddConnects lib b id ep → Agrees (connectGroup lib b.step 1 id [ep]).members reply b
    (b.addGroupMember lib id ep reply) id
  respawn : ∀ k w plan watched spawned now, plan = .closeThenSpawn ∨ plan = .spawnThenClose →
    watchedIds (repairStranded lib k id w plan watched spawned now).spawned =
      watchedIds spawned ++ (connectGroup lib k 0 id [w.endpoint]).members.filterMap okId

section Callers

variable {lib : Libsrt} {b : Bridge} {id : SocketId} {endpoints : List GroupEndpoint} {reply : ReplyId}

theorem watchedIds_watchSpawned (k : ℕ) (now : Instant)
    (members : List (GroupEndpoint × SocketId)) :
    watchedIds (watchSpawned lib k now members) = members.map Prod.snd := by
  simp [watchedIds, watchSpawned]

theorem addGroupMember_agrees {ep : GroupEndpoint} (h : AddConnects lib b id ep) :
    Agrees (connectGroup lib b.step 1 id [ep]).members reply b (b.addGroupMember lib id ep reply)
      id := by
  obtain ⟨⟨s, hs, hg, ht⟩, hc, hf⟩ := h
  obtain ⟨m, hm⟩ := connectGroup_members_one lib b.step 1 id ep
  have hlive : ¬¬(s.isGroup = true ∧ isTerminalStatus s.lastStatus = false) := not_not.mpr ⟨hg, ht⟩
  cases hsingle : (connectGroup lib b.step 1 id [ep]).single with
  | ok new =>
    have hnew : m = .ok new := by simpa [hm] using single_ok_iff.mp hsingle
    have hrun : b.addGroupMember lib id ep reply = (b.putGroup id
        ⟨{ s with watched := s.watched ++ [.spawned lib b.step new ep b.clock] }, b.clock,
          b.step + 1, [] ++ [.spawn b.step new ep]⟩).answer reply (.done (.ok ())) := by
      simp only [Bridge.addGroupMember, hs, GroupRun.addGroupMember, Bridge.groupRun, hlive, if_false,
        hc, ne_eq, not_true_eq_false, hf, hsingle]
    have hok : (b.addGroupMember lib id ep reply).Answered reply (.ok ()) :=
      hrun ▸ Bridge.answered_answer
    refine ⟨iff_of_false ?_ ?_, fun _ => hok, fun _ s' hs' _ => ?_⟩
    · rintro ⟨err, he⟩
      cases hok.unique he
    · exact fun hno => hno new (by simp [hm, hnew])
    · obtain rfl : s = s' := Option.some.inj (hs.symm.trans hs')
      refine ⟨_, by rw [hrun]; simp [Bridge.putGroup, Bridge.entry_setEntry]; rfl, ?_⟩
      simp [hm, hnew, watchedIds, okId]
  | error err =>
    have hnew : ∀ new, m ≠ .ok new := fun new hn => by
      have hok := single_ok_iff.mpr (hn ▸ hm)
      rw [hsingle] at hok
      cases hok
    have hno : ∀ new, .ok new ∉ (connectGroup lib b.step 1 id [ep]).members := fun new hin => by
      rw [hm, List.mem_singleton] at hin
      exact hnew new hin.symm
    have hrun : b.addGroupMember lib id ep reply =
        (b.putGroup id ⟨s, b.clock, b.step + 1, []⟩).answer reply (.done (.error err)) := by
      simp only [Bridge.addGroupMember, hs, GroupRun.addGroupMember, Bridge.groupRun, hlive, if_false,
        hc, ne_eq, not_true_eq_false, hf, hsingle]
    have hnone : ¬∃ new, .ok new ∈ (connectGroup lib b.step 1 id [ep]).members := not_exists.mpr hno
    exact ⟨iff_of_true ⟨err, hrun ▸ Bridge.answered_answer⟩ hno, fun hin => absurd hin hnone,
      fun hin => absurd hin hnone⟩

theorem repairStranded_agrees (k : ℕ) (w : WatchedMember) {plan : RepairPlan}
    (watched spawned : List WatchedMember) (now : Instant)
    (hp : plan = .closeThenSpawn ∨ plan = .spawnThenClose) :
    watchedIds (repairStranded lib k id w plan watched spawned now).spawned =
      watchedIds spawned ++ (connectGroup lib k 0 id [w.endpoint]).members.filterMap okId := by
  obtain ⟨m, hm⟩ := connectGroup_members_one lib k 0 id w.endpoint
  cases hsingle : (connectGroup lib k 0 id [w.endpoint]).single with
  | ok new =>
    have hmem := single_ok_iff.mp hsingle
    rcases hp with rfl | rfl <;> simp [repairStranded, hsingle, hmem, watchedIds, okId]
  | error err =>
    have hmem : m.toOption = none := by
      cases m with
      | ok new =>
        rw [single_ok_iff.mpr hm] at hsingle
        cases hsingle
      | error err => rfl
    cases m with
    | ok new => cases hmem
    | error err => rcases hp with rfl | rfl <;> simp [repairStranded, hsingle, hm, okId]

/-- `ConnectGroup` tells of success by libsrt's refusal alone. -/
theorem connectGroup_answered (lib : Libsrt) (b : Bridge) (id : SocketId)
    (endpoints : List GroupEndpoint) (reply : ReplyId) :
    (∃ err, (connectGroup lib b.step 0 id endpoints).refused = some err ∧
        b.connectGroup lib id endpoints reply = b.answer reply (.done (.error err))) ∨
      (connectGroup lib b.step 0 id endpoints).refused = none ∧
        (b.connectGroup lib id endpoints reply).Answered reply (.ok ()) ∧
        Watches (b.entry id) ((b.connectGroup lib id endpoints reply).entry id)
          ((connectGroup lib b.step 0 id endpoints).members.filterMap okId) := by
  cases hr : (connectGroup lib b.step 0 id endpoints).refused with
  | some err => exact .inl ⟨err, rfl, by simp [Bridge.connectGroup, hr]⟩
  | none =>
    refine .inr ⟨rfl, ?_, fun s hs hg => ?_⟩
    · simp only [Bridge.connectGroup, hr]
      exact Bridge.answered_answer
    · have hids := spawnedMembers_ids (connectGroup_length lib b.step 0 id endpoints)
      refine ⟨((b.groupRun s).connect lib id endpoints).2.entry, ?_, ?_⟩
      · simp [Bridge.connectGroup, hr, hs, Bridge.putGroup, Bridge.entry_setEntry, Bridge.groupRun]
        rfl
      · simp only [GroupRun.connect, Bridge.groupRun, hr, SocketState.updateStatus_isGroup, hg, if_true,
          SocketState.updateStatus_watched]
        rw [watchedIds, List.map_append, ← watchedIds, ← watchedIds, watchedIds_watchSpawned, hids]

/-- `ConnectGroup` is true to the results exactly when libsrt refuses the call as a whole
exactly when none of them is a member. -/
theorem connectGroup_agrees_iff :
    Agrees (connectGroup lib b.step 0 id endpoints).members reply b
        (b.connectGroup lib id endpoints reply) id ↔
      ((connectGroup lib b.step 0 id endpoints).refused.isSome ↔
        ¬∃ m, .ok m ∈ (connectGroup lib b.step 0 id endpoints).members) := by
  rcases connectGroup_answered lib b id endpoints reply with ⟨err, hr, hb⟩ | ⟨hr, hok, hw⟩
  · have herr : (b.connectGroup lib id endpoints reply).Answered reply (.error err) :=
      hb ▸ Bridge.answered_answer
    rw [hr, Option.isSome_some, eq_self, true_iff, not_exists]
    constructor
    · exact fun h => h.fails.mp ⟨err, herr⟩
    · intro h
      exact ⟨iff_of_true ⟨err, herr⟩ h, fun hin => absurd hin (not_exists.mpr h),
        fun hin => absurd hin (not_exists.mpr h)⟩
  · have hno : ¬∃ err, (b.connectGroup lib id endpoints reply).Answered reply (.error err) := by
      rintro ⟨err, he⟩
      cases hok.unique he
    rw [hr, Option.isSome_none, eq_false Bool.false_ne_true, false_iff, not_not]
    constructor
    · intro h
      by_contra hnone
      exact hno (h.fails.mpr fun m hm => hnone ⟨m, hm⟩)
    · rintro ⟨m, hm⟩
      exact ⟨iff_of_false hno fun h => h m hm, fun _ => hok, fun _ => hw⟩

theorem connectGroup_single_iff {ep : GroupEndpoint} :
    ((b.connectGroup lib id [ep] reply).Answered reply (.ok ()) ↔
        ∃ m, (connectGroup lib b.step 0 id [ep]).single = .ok m) ↔
      ((connectGroup lib b.step 0 id [ep]).refused.isSome ↔
        ¬∃ m, .ok m ∈ (connectGroup lib b.step 0 id [ep]).members) := by
  have hsingle : (∃ m, (connectGroup lib b.step 0 id [ep]).single = .ok m) ↔
      ∃ m, .ok m ∈ (connectGroup lib b.step 0 id [ep]).members := by
    obtain ⟨x, hx⟩ := connectGroup_members_one lib b.step 0 id ep
    rw [hx]
    refine exists_congr fun m => ?_
    rw [single_ok_iff, hx, List.cons.injEq, List.mem_singleton, and_iff_left rfl, eq_comm]
  rw [hsingle]
  rcases connectGroup_answered lib b id [ep] reply with ⟨err, hr, hb⟩ | ⟨hr, hok, -⟩
  · have hno : ¬(b.connectGroup lib id [ep] reply).Answered reply (.ok ()) := fun hok => by
      rw [hb] at hok
      cases hok.unique Bridge.answered_answer
    simp only [hno, false_iff, hr, Option.isSome_some, true_iff]
  · simp only [hok, true_iff, hr, Option.isSome_none, Bool.false_eq_true, false_iff, not_not]

end Callers

/-- The callers of `connect_group` agree on success exactly when libsrt refuses the call as
a whole exactly when it leaves no member in the group. -/
theorem agreeOnSuccess_iff (lib : Libsrt) (b : Bridge) (id : SocketId)
    (endpoints : List GroupEndpoint) (reply : ReplyId) :
    AgreeOnSuccess lib b id endpoints reply ↔ (endpoints ≠ [] →
      ((lib.connectGroup b.step id (endpoints.map prepareTarget)).1 < 0 ↔
        ¬MemberLeft lib b.step 0 id endpoints)) := by
  have hcond : ((connectGroup lib b.step 0 id endpoints).refused.isSome ↔
      ¬∃ m, .ok m ∈ (connectGroup lib b.step 0 id endpoints).members) ↔ (endpoints ≠ [] →
        ((lib.connectGroup b.step id (endpoints.map prepareTarget)).1 < 0 ↔
          ¬MemberLeft lib b.step 0 id endpoints)) := by
    by_cases he : endpoints = []
    · simp [connectGroup, he]
    · rw [connectRefused_isSome he, exists_ok_iff he]
      simp [he]
  rw [← hcond]
  constructor
  · exact fun h => connectGroup_agrees_iff.mp h.connect
  · intro h
    refine ⟨connectGroup_agrees_iff.mpr h, ?_, fun ep => addGroupMember_agrees,
      fun k w plan watched spawned now => repairStranded_agrees k w watched spawned now⟩
    rintro ep rfl
    exact connectGroup_single_iff.mpr h

/-- A library that reads the only member broken in the middle of its handshake: it refuses
the call as a whole, reports neither id nor error for the member, and keeps it. -/
def Libsrt.keeping : Libsrt :=
  { Libsrt.refusing with
    getlasterror := fun _ _ => 2001
    groupData := fun _ j _ => if j = 1 then some [⟨5, .connecting, .pending, 1, 7⟩] else some []
    connectGroup := fun _ _ _ => (-1, fun _ => (-1, 0)) }

/-- The member is kept, but `ConnectGroup` fails. -/
theorem connectGroup_disagrees :
    let ep : GroupEndpoint := ⟨.v4 0x7f000001 9000, none, 1, 7⟩
    ¬AgreeOnSuccess .keeping .start 500 [ep] 0 ∧
      (Bridge.start.connectGroup .keeping 500 [ep] 0).Answered 0 (.error .connectionLost) ∧
      (connectGroup .keeping 0 0 500 [ep]).single = .ok 5 := by
  refine ⟨fun h => ?_, by rfl, by rfl⟩
  have hno := h.connect.fails.mp ⟨.connectionLost, by rfl⟩
  exact hno 5 (by decide)

end SrtBridge
