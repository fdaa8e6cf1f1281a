import SrtBridge.Bridge.Accounts
import SrtBridge.Bridge.Bonds

/-! Where the members of a group come from: each is spawned at an endpoint that some command gave for the
group. A replacement goes to the endpoint of the member that it replaces. -/

namespace SrtBridge

open General

/-- The members watched and those spawned so far are at endpoints in `eps`. -/
def At (eps : List GroupEndpoint) (ws : List WatchedMember) (T : List MemberEvent) : Prop :=
  (∀ w ∈ ws, w.endpoint ∈ eps) ∧ ∀ k id ep, MemberEvent.spawn k id ep ∈ T → ep ∈ eps

def GroupRun.Action.endpoints : GroupRun.Action → List GroupEndpoint
  | .connect eps => eps
  | .add ep => [ep]
  | _ => []

def IoCommand.endpointsFor (grp : SocketId) : IoCommand → List GroupEndpoint
  | .connectGroup id eps _ => if id = grp then eps else []
  | .addGroupMember id ep _ => if id = grp then [ep] else []
  | _ => []

section Members

variable {lib : Libsrt} {grp : SocketId} {eps : List GroupEndpoint} {ws ws' : List WatchedMember}
  {T T' : List MemberEvent}

theorem At.mono {eps' : List GroupEndpoint} (h : At eps ws T) (hs : eps ⊆ eps') : At eps' ws T :=
  ⟨fun w hw => hs (h.1 w hw), fun k id ep he => hs (h.2 k id ep he)⟩

theorem At.append (h : At eps ws T) (h' : At eps ws' T') : At eps (ws ++ ws') (T ++ T') :=
  ⟨fun w hw => (List.mem_append.mp hw).elim (h.1 w) (h'.1 w),
    fun k id ep he => (List.mem_append.mp he).elim (h.2 k id ep) (h'.2 k id ep)⟩

theorem at_spawned (lib : Libsrt) (k : ℕ) (now : Instant) (endpoints : List GroupEndpoint)
    (results : List (Except SrtError SocketId)) :
    At endpoints (watchSpawned lib k now (spawnedMembers endpoints results))
      (spawnEvents k (spawnedMembers endpoints results)) := by
  have hmem (e : GroupEndpoint × SocketId) (he : e ∈ spawnedMembers endpoints results) : e.1 ∈ endpoints :=
    (spawnedMembers_endpoints endpoints results).subset (List.mem_map_of_mem he)
  constructor
  · intro w hw
    obtain ⟨e, he, rfl⟩ := List.mem_map.mp hw
    exact hmem e he
  · intro i id ep hspawn
    obtain ⟨e, he, heq⟩ := List.mem_map.mp hspawn
    obtain ⟨-, -, rfl⟩ := MemberEvent.spawn.inj heq
    exact hmem e he

/-- A turn of a check spawns at the endpoint of the member it looks at. -/
theorem Exit.at {inp : CheckInput} {k : ℕ} {seen : List WatchedMember} {w : WatchedMember}
    {unseen spawned seen' unseen' spawned' : List WatchedMember} {events : List MemberEvent}
    (h : Exit lib inp k seen w unseen spawned seen' unseen' spawned' events)
    (ha : At eps (seen ++ (w :: unseen) ++ spawned) T) :
    At eps (seen' ++ unseen' ++ spawned') (T ++ events) := by
  have hold (u : WatchedMember) (hu : u ∈ seen ∨ u ∈ unseen ∨ u ∈ spawned) : u.endpoint ∈ eps :=
    ha.1 u (by simp only [List.mem_append, List.mem_cons]; tauto)
  have hw : w.endpoint ∈ eps := ha.1 w (by simp)
  have hpassed {u v : WatchedMember} (hp : Passed lib inp k seen w unseen spawned u v)
      (hu : u.endpoint ∈ eps) : v.endpoint ∈ eps := by
    rw [hp.same_member.2.1]
    exact hu
  obtain ⟨hseen, hunseen, hspawned⟩ := h.origins
  constructor
  · intro v hv
    rcases List.mem_append.mp hv with hv | hv
    · rcases List.mem_append.mp hv with hv | hv
      · rcases hseen v hv with ⟨u, hu, hp⟩ | hk
        · exact hpassed hp (hold u (.inl hu))
        · rw [hk.endpoint_eq]
          exact hw
      · obtain ⟨u, hu, hp⟩ := hunseen v hv
        exact hpassed hp (hold u (.inr (.inl hu)))
    · rcases hspawned v hv with ⟨u, hu, hp⟩ | hr
      · exact hpassed hp (hold u (.inr (.inr hu)))
      · cases hr <;> exact hw
  · intro i id ep he
    rcases List.mem_append.mp he with he | he
    · exact ha.2 i id ep he
    · rcases h.spawns with hnone | ⟨before, new, rfl, hnone, -⟩
      · cases hnone _ he
      · rcases List.mem_append.mp he with he | he
        · cases hnone _ he
        · obtain ⟨-, -, rfl⟩ := MemberEvent.spawn.inj (List.mem_singleton.mp he)
          exact hw

theorem at_preserved (lib : Libsrt) (grp : SocketId) (eps : List GroupEndpoint) :
    Preserved lib grp (fun a => a.endpoints ⊆ eps) (fun ws _ _ T => At eps ws T)
      (fun _ seen unseen spawned _ T => At eps (seen ++ unseen ++ spawned) T) where
  elapse _ _ h := h
  skip _ h := h
  reorder _ hp h := ⟨fun w hw => h.1 w (hp.mem_iff.mp hw), h.2⟩
  connect ho h _ := h.append ((at_spawned ..).mono ho)
  add {ws now k T endpoint member} ho h _ _ := by
    have hep : endpoint ∈ eps := ho (List.mem_singleton_self _)
    refine h.append ⟨fun w hw => ?_, fun i id ep he => ?_⟩
    · rw [List.mem_singleton.mp hw]
      exact hep
    · obtain ⟨-, -, rfl⟩ := MemberEvent.spawn.inj (List.mem_singleton.mp he)
      exact hep
  begin {ws now k T inp} h _ _ _ := by
    refine ⟨fun w hw => ?_, h.2⟩
    rw [List.nil_append, List.append_nil] at hw
    obtain ⟨v, hv, i, -, -, rfl⟩ := mem_readLive hw
    exact h.1 v hv
  turn h he := he.at h
  finish h := by simpa using h

/-- One action of a group, or of an entry that is none. -/
theorem GroupRun.act_at {r : GroupRun} {a : GroupRun.Action} (ha : a.endpoints ⊆ eps)
    (hg : r.entry.isGroup = false → r.entry.watched = []) (h : At eps r.entry.watched r.trace) :
    At eps (GroupRun.act lib grp r a).entry.watched (GroupRun.act lib grp r a).trace := by
  by_cases hgroup : r.entry.isGroup = true
  · exact ((at_preserved lib grp eps).holds_act ha ⟨hgroup, h⟩).2
  · have hnone := hg (by simpa using hgroup)
    have hsame {r' : GroupRun} (hw : r'.entry.watched = r.entry.watched) (ht : r'.trace = r.trace) :
        At eps r'.entry.watched r'.trace := by
      rw [hw, ht]
      exact h
    cases a with
    | elapse => exact h
    | status => exact hsame (SocketState.updateStatus_watched ..) rfl
    | connect endpoints =>
      unfold GroupRun.act GroupRun.connect
      dsimp only
      split
      · exact h
      · have hspawned := h.append ((at_spawned lib r.step r.clock endpoints
          (connectGroup lib r.step 0 grp endpoints).members).mono ha)
        refine ⟨?_, hspawned.2⟩
        simpa [hgroup] using h.1
    | add endpoint =>
      refine hsame ?_ ?_ <;> simp [GroupRun.act, GroupRun.addGroupMember, hgroup]
    | reorder watched =>
      unfold GroupRun.act
      dsimp only
      split_ifs with hp
      · exact ⟨fun w hw => h.1 w (hp.mem_iff.mp hw), h.2⟩
      · exact h
    | check =>
      refine hsame ?_ ?_ <;> simp [GroupRun.act, GroupRun.checkGroup, hnone]

end Members

namespace Bridge

def Action.given (grp : SocketId) : Action → List GroupEndpoint
  | .io (.command cmd) => cmd.endpointsFor grp
  | _ => []

/-- The members of the group, those that it watches and those spawned so far, are at endpoints in `eps`. -/
def MembersAt (grp : SocketId) (eps : List GroupEndpoint) (b : Bridge) : Prop :=
  (∀ e, b.entry grp = some e → At eps e.watched []) ∧ At eps [] (memberEvents grp b.trace)

section Given

variable {lib : Libsrt} {grp : SocketId} {eps : List GroupEndpoint} {b b' : Bridge} {e : SocketState}

theorem at_nil : At eps [] [] := ⟨fun _ h => (by cases h), fun _ _ _ h => by cases h⟩

theorem Spares.membersAt (hs : Spares grp b b') (h : MembersAt grp eps b) : MembersAt grp eps b' := by
  obtain ⟨es, ht, hno, ⟨-, hbare⟩ | hbond⟩ := hs
  · refine ⟨fun e he => ?_, ?_⟩
    · rw [hbare e he]
      exact at_nil
    · rw [ht, memberEvents_append, memberEvents_none hno, List.append_nil]
      exact h.2
  · refine ⟨fun e' he' => ?_, ?_⟩
    · rw [he', Option.map_some, eq_comm, Option.map_eq_some_iff] at hbond
      obtain ⟨e, he, hsame⟩ := hbond
      have hw : e'.watched = e.watched := (congrArg (Prod.snd ∘ Prod.snd) hsame).symm
      rw [hw]
      exact h.1 e he
    · rw [ht, memberEvents_append, memberEvents_none hno, List.append_nil]
      exact h.2

theorem Mirrors.membersAt {a : GroupRun.Action} (hm : Mirrors lib grp b e a b') (he : b.entry grp = some e)
    (ha : a.endpoints ⊆ eps) (hg : e.isGroup = false → e.watched = []) (h : MembersAt grp eps b) :
    MembersAt grp eps b' := by
  have hact : At eps (GroupRun.act lib grp (b.groupRun e) a).entry.watched
      (GroupRun.act lib grp (b.groupRun e) a).trace := GroupRun.act_at ha hg (h.1 e he)
  obtain ⟨es, ht, hes⟩ := hm.record
  refine ⟨fun e' he' => ?_, ?_⟩
  · obtain rfl := Option.some.inj (hm.entry.symm.trans he')
    exact ⟨hact.1, fun _ _ _ hn => by cases hn⟩
  · rw [ht, memberEvents_append, hes]
    exact h.2.append ⟨fun _ hn => (by cases hn), hact.2⟩

theorem spares_of_none (he : b.entry grp = none) (s : IoStep) : Spares grp b (b.ioStep lib s) := by
  by_cases ha : groupAction grp s = none
  · exact ioStep_spares ha
  · cases s with
    | command cmd =>
      cases cmd with
      | connectGroup id eps reply =>
        have hid : id = grp := by simpa [groupAction] using ha
        subst hid
        show Spares id b (b.connectGroup lib id eps reply)
        unfold connectGroup
        split
        · exact .answer _
        · have hent : (b.emit (.subscribed id)).entry id = none := he
          simp only [hent]
          exact (Spares.emit rfl).trans (.answer _)
      | addGroupMember id ep reply =>
        have hid : id = grp := by simpa [groupAction] using ha
        subst hid
        show Spares id b (b.addGroupMember lib id ep reply)
        unfold addGroupMember
        rw [he]
        exact .answer _
      | _ => exact absurd rfl ha
    | check id =>
      have hid : id = grp := by simpa [groupAction] using ha
      subst hid
      have hsame : b.check lib id = b := by
        unfold check
        rw [he]
      show Spares id b (b.check lib id)
      rw [hsame]
      exact .refl
    | _ => exact absurd rfl ha

theorem endpoints_of_action {s : IoStep} {a : GroupRun.Action} (ha : groupAction grp s = some a) :
    a.endpoints = Action.given grp (.io s) := by
  cases s with
  | command cmd =>
    cases cmd with
    | connectGroup id eps reply =>
      simp only [groupAction, Option.ite_none_right_eq_some, Option.some.injEq] at ha
      obtain ⟨rfl, rfl⟩ := ha
      exact (if_pos rfl).symm
    | addGroupMember id ep reply =>
      simp only [groupAction, Option.ite_none_right_eq_some, Option.some.injEq] at ha
      obtain ⟨rfl, rfl⟩ := ha
      exact (if_pos rfl).symm
    | _ => cases ha
  | check id =>
    simp only [groupAction, Option.ite_none_right_eq_some, Option.some.injEq] at ha
    obtain ⟨-, rfl⟩ := ha
    rfl
  | _ => cases ha

theorem MembersAt.mono {eps' : List GroupEndpoint} (h : MembersAt grp eps b) (hs : eps ⊆ eps') :
    MembersAt grp eps' b :=
  ⟨fun e he => (h.1 e he).mono hs, h.2.mono hs⟩

theorem MembersAt.act (h : MembersAt grp eps b)
    (hg : ∀ e, b.entry grp = some e → e.isGroup = false → e.watched = []) (a : Action) :
    MembersAt grp (eps ++ a.given grp) (b.act lib a) := by
  have hmore : MembersAt grp (eps ++ a.given grp) b := h.mono (List.subset_append_left ..)
  cases a with
  | tokio t => cases t <;> exact hmore
  | elapse d => exact hmore
  | io s =>
    show MembersAt grp _ (if b.running = true then _ else b)
    split_ifs
    · have hstep : MembersAt grp (eps ++ Action.given grp (.io s)) (b.ioStep lib s) := by
        cases he : b.entry grp with
        | none => exact (spares_of_none he s).membersAt hmore
        | some e =>
          cases ha : groupAction grp s with
          | none => exact (ioStep_spares ha).membersAt hmore
          | some a =>
            have hdone : b.ioStep lib s = b ∨ Mirrors lib grp b e a (b.ioStep lib s) :=
              mirrors_of_action ha he
            rcases hdone with hsame | hm
            · rw [hsame]
              exact hmore
            · refine hm.membersAt he ?_ (hg e he) hmore
              rw [endpoints_of_action ha]
              exact List.subset_append_right ..
      exact hstep
    · exact hmore

end Given

end Bridge

end SrtBridge
