import SrtBridge.Members.Ledger

/-! Why a member is closed. The bridge closes a member only after looks that read it
stranded for the whole grace, without another reading in between, or after a look
that found it unresolved past its deadline; and this is so however the close comes
about, for a member carried along in another's chain too. -/

namespace SrtBridge

/-- What one look at a member read, and the member's deadline. -/
structure Reading where
  now : Instant
  verdict : Verdict
  resolveBy : Instant

def MemberEvent.readingOf (id : SocketId) : MemberEvent → Option Reading
  | .look _ i now verdict resolveBy _ => if i = id then some ⟨now, verdict, resolveBy⟩ else none
  | _ => none

def looksOf (id : SocketId) (T : List MemberEvent) : List Reading :=
  T.filterMap (MemberEvent.readingOf id)

def Reading.stranded (l : Reading) : Prop := l.verdict = .stranded ∨ l.verdict = .brokenLive

/-- Consecutive looks that all read the member stranded, from `since` on. -/
def StrandedRun (since : Instant) (run : List Reading) : Prop :=
  (∀ l ∈ run, l.stranded) ∧ run.head?.map Reading.now = some since

/-- The member was read stranded at every look over the grace, or unresolved at or
past its deadline. -/
def Justified (T : List MemberEvent) (id : SocketId) : Prop :=
  (∃ before run after since last, looksOf id T = before ++ run ++ after ∧ StrandedRun since run ∧
    run.getLast?.map Reading.now = some last ∧ strandedMemberGrace ≤ last - since) ∨
  ∃ l ∈ looksOf id T, l.verdict = .handshaking ∧ l.resolveBy ≤ l.now

instance (l : Reading) : Decidable l.stranded := inferInstanceAs (Decidable (_ ∨ _))

/-- Whether a member may be closed is a matter of the stretches of its looks. -/
theorem justified_iff {T : List MemberEvent} {id : SocketId} : Justified T id ↔
    (∃ rest ∈ (looksOf id T).tails, ∃ run ∈ rest.inits, (∀ l ∈ run, l.stranded) ∧
      ∃ first ∈ run.head?, ∃ last ∈ run.getLast?, strandedMemberGrace ≤ last.now - first.now) ∨
    ∃ l ∈ looksOf id T, l.verdict = .handshaking ∧ l.resolveBy ≤ l.now := by
  refine or_congr_left ⟨?_, ?_⟩
  · rintro ⟨before, run, after, since, last, hl, ⟨hs, hfirst⟩, hlast, hle⟩
    obtain ⟨f, hf, rfl⟩ := Option.map_eq_some_iff.mp hfirst
    obtain ⟨l, hl', rfl⟩ := Option.map_eq_some_iff.mp hlast
    refine ⟨run ++ after, ?_, run, ?_, hs, f, hf, l, hl', hle⟩
    · exact (List.mem_tails _ _).mpr ⟨before, by rw [hl, List.append_assoc]⟩
    · exact (List.mem_inits _ _).mpr ⟨after, rfl⟩
  · rintro ⟨rest, hrest, run, hrun, hs, f, hf, l, hl, hle⟩
    obtain ⟨before, hb⟩ := (List.mem_tails _ _).mp hrest
    obtain ⟨after, rfl⟩ := (List.mem_inits _ _).mp hrun
    exact ⟨before, run, after, f.now, l.now, by rw [← hb, List.append_assoc], ⟨hs, by rw [hf]; rfl⟩,
      by rw [hl]; rfl, hle⟩

instance (T : List MemberEvent) (id : SocketId) : Decidable (Justified T id) :=
  decidable_of_iff _ justified_iff.symm

def ClosesJustified (T : List MemberEvent) : Prop :=
  ∀ before k id after, T = before ++ .close k id :: after → Justified before id

section Looks

variable {T T' : List MemberEvent} {id : SocketId}

theorem looksOf_append : looksOf id (T ++ T') = looksOf id T ++ looksOf id T' :=
  List.filterMap_append

theorem looksOf_eq_nil (h : lookedIds T = []) : looksOf id T = [] := by
  rw [looksOf, List.filterMap_eq_nil_iff]
  intro e he
  have := List.filterMap_eq_nil_iff.mp h e he
  cases e with
  | look => contradiction
  | _ => rfl

theorem Justified.append (h : Justified T id) (T' : List MemberEvent) : Justified (T ++ T') id := by
  rcases h with ⟨before, run, after, since, last, hl, hr⟩ | ⟨l, hl, hr⟩
  · exact .inl ⟨before, run, after ++ looksOf id T', since, last, by simp [looksOf_append, hl], hr⟩
  · exact .inr ⟨l, by simp [looksOf_append, hl], hr⟩

/-- Closes stay justified by what follows, if each further one is justified by now. -/
theorem ClosesJustified.append (h : ClosesJustified T)
    (hc : ∀ id ∈ closedIds T', Justified T id) : ClosesJustified (T ++ T') := by
  intro before k id after he
  rcases List.append_eq_append_iff.mp he with ⟨as, rfl, hT'⟩ | ⟨bs, hT, hb⟩
  · refine (hc id ?_).append as
    rw [hT']
    simp [closedIds, MemberEvent.closedId]
  · cases bs with
    | nil =>
      have hT' : T' = .close k id :: after := by simpa using hb.symm
      have hJ := hc id (by rw [hT']; simp [closedIds, MemberEvent.closedId])
      simpa [hT] using hJ
    | cons b bs =>
      obtain ⟨rfl, -⟩ := List.cons_eq_cons.mp (by simpa using hb)
      exact h before k id bs hT

end Looks

/-- The grace clock of a member counts its last looks, all of them stranded, and
what it supersedes may be closed. -/
structure Graced (T : List MemberEvent) (w : WatchedMember) : Prop where
  clock : ∀ since, w.strandedSince = some since →
    ∃ before run, looksOf w.id T = before ++ run ∧ StrandedRun since run
  supersedes : ∀ id ∈ w.supersedes, Justified T id

theorem Graced.append {T T' : List MemberEvent} {w : WatchedMember} (h : Graced T w)
    (hl : looksOf w.id T' = []) : Graced (T ++ T') w where
  clock since hs := by
    obtain ⟨before, run, hb, hr⟩ := h.clock since hs
    exact ⟨before, run, by rw [looksOf_append, hl, List.append_nil, hb], hr⟩
  supersedes id hid := (h.supersedes id hid).append T'

section Look

variable {lib : Libsrt} {inp : CheckInput} {k : ℕ} {w : WatchedMember} {T : List MemberEvent}

variable (lib inp k w) in
def lookEvent : MemberEvent :=
  .look k w.id inp.now (lookAt lib inp k w).verdict w.resolveBy (lookAt lib inp k w).member.supersedes

theorem looksOf_lookEvent :
    looksOf w.id [lookEvent lib inp k w] = [⟨inp.now, (lookAt lib inp k w).verdict, w.resolveBy⟩] := by
  simp [looksOf, lookEvent, MemberEvent.readingOf]

theorem looksOf_lookEvent_ne {id : SocketId} (h : w.id ≠ id) :
    looksOf id [lookEvent lib inp k w] = [] := by
  simp [looksOf, lookEvent, MemberEvent.readingOf, h]

variable (lib inp k) in
/-- The run of stranded looks that a stranded look ends. -/
theorem Graced.strandedRun (h : Graced T w)
    (hv : (lookAt lib inp k w).verdict = .stranded ∨ (lookAt lib inp k w).verdict = .brokenLive) :
    ∃ before run, looksOf w.id (T ++ [lookEvent lib inp k w]) = before ++ run ∧
      StrandedRun (w.strandedSince.getD inp.now) run ∧
      run.getLast?.map Reading.now = some inp.now := by
  rw [looksOf_append, looksOf_lookEvent]
  cases hs : w.strandedSince with
  | none => exact ⟨looksOf w.id T, [_], rfl, ⟨by simpa [Reading.stranded] using hv, rfl⟩, rfl⟩
  | some since =>
    obtain ⟨before, run, hb, hall, hhead⟩ := h.clock since hs
    refine ⟨before, run ++ [⟨inp.now, (lookAt lib inp k w).verdict, w.resolveBy⟩],
      by rw [hb, List.append_assoc], ⟨fun l hl => ?_, ?_⟩, by simp⟩
    · rcases List.mem_append.mp hl with hl | hl
      · exact hall l hl
      · rw [List.mem_singleton.mp hl]
        exact hv
    · cases run with
      | nil => simp at hhead
      | cons x xs => simpa using hhead

/-- The look of a member it decides to replace or to abandon justifies its close. -/
theorem Graced.justified (h : Graced T w)
    (hn : (lookAt lib inp k w).next = .abandon ∨ (lookAt lib inp k w).next = .repair) :
    Justified (T ++ [lookEvent lib inp k w]) w.id := by
  have hlate (hv : (lookAt lib inp k w).verdict = .handshaking) (hr : w.resolveBy ≤ inp.now) :
      Justified (T ++ [lookEvent lib inp k w]) w.id := by
    refine .inr ⟨⟨inp.now, (lookAt lib inp k w).verdict, w.resolveBy⟩, ?_, hv, hr⟩
    rw [looksOf_append, looksOf_lookEvent]
    simp
  rcases hn with hn | hn
  · exact hlate (lookAt_abandon hn).1 (lookAt_abandon hn).2
  · rcases lookAt_repair hn with ⟨hv, hg⟩ | ⟨hv, hr, -⟩
    · obtain ⟨before, run, hb, hrun, hlast⟩ := h.strandedRun lib inp k hv
      exact .inl ⟨before, run, [], _, _, by rw [hb, List.append_nil], hrun, hlast, hg⟩
    · exact hlate hv hr

theorem Graced.look (h : Graced T w) (hn : (lookAt lib inp k w).next ≠ .drop) :
    Graced (T ++ [lookEvent lib inp k w]) (lookAt lib inp k w).member where
  clock since hs := by
    rw [lookAt_strandedSince] at hs
    have hg : (lookAt lib inp k w).verdict ≠ .gone := fun hg =>
      hn (lookAt_drop.mpr (.inl hg))
    by_cases hv : (lookAt lib inp k w).verdict = .stranded ∨
        (lookAt lib inp k w).verdict = .brokenLive
    · obtain ⟨before, run, hb, hrun, -⟩ := h.strandedRun lib inp k hv
      have hsince : w.strandedSince.getD inp.now = since := by
        rcases hv with hv | hv <;> simpa [hv] using hs
      exact ⟨before, run, by rw [lookAt_id, hb], hsince ▸ hrun⟩
    · cases hverdict : (lookAt lib inp k w).verdict <;> simp_all
  supersedes id hid := (h.supersedes id (mem_lookAt_supersedes hid)).append _

end Look

/-- Every close so far is justified, and every close of a watched member or of what
it supersedes will be. -/
def GraceKept (ws : List WatchedMember) (T : List MemberEvent) : Prop :=
  ClosesJustified T ∧ ∀ w ∈ ws, Graced T w

section Turn

variable {lib : Libsrt} {inp : CheckInput} {k : ℕ} {seen : List WatchedMember} {w : WatchedMember}
  {unseen spawned seen' unseen' spawned' : List WatchedMember} {events T : List MemberEvent}

/-- A turn at a due member records its look first, and no other. -/
theorem Exit.events_eq (h : Exit lib inp k seen w unseen spawned seen' unseen' spawned' events)
    (hd : w.notBefore ≤ inp.now) :
    ∃ rest, events = lookEvent lib inp k w :: rest ∧ ∀ id, looksOf id rest = [] := by
  obtain ⟨rest, rfl, hrest⟩ := h.begins_with_look hd
  have hlook : (lookAt lib inp k w).events k inp.now =
      lookEvent lib inp k w :: closeMembers k (lookAt lib inp k w).lingered := by
    simp [Look.events, lookEvent]
  refine ⟨_, by rw [hlook, List.cons_append], fun id => looksOf_eq_nil ?_⟩
  rw [lookedIds_append, lookedIds_closeMembers, hrest, List.append_nil]

theorem Exit.graceKept (h : Exit lib inp k seen w unseen spawned seen' unseen' spawned' events)
    (hids : (watchedIds (seen ++ w :: unseen ++ spawned)).Nodup)
    (hg : GraceKept (seen ++ w :: unseen ++ spawned) T) :
    GraceKept (seen' ++ unseen' ++ spawned') (T ++ events) := by
  have hw : Graced T w := hg.2 w (by simp)
  by_cases hd : w.notBefore ≤ inp.now
  swap
  · cases h with
    | later => simpa [GraceKept, or_assoc] using hg
    | _ => contradiction
  obtain ⟨rest, rfl, hrest⟩ := h.events_eq hd
  have hT : T ++ lookEvent lib inp k w :: rest = T ++ [lookEvent lib inp k w] ++ rest := by simp
  -- every other member has its own id, so the look is none of theirs
  have hother (v : WatchedMember) (hv : v ∈ seen ++ unseen ++ spawned) :
      Graced (T ++ [lookEvent lib inp k w]) v := by
    have hv' : v ∈ seen ++ w :: unseen ++ spawned := by
      simp only [List.mem_append, List.mem_cons] at hv ⊢
      tauto
    refine (hg.2 v hv').append (looksOf_lookEvent_ne fun he => ?_)
    have hperm : (watchedIds (w :: (seen ++ unseen ++ spawned))).Nodup := by
      refine (List.Perm.nodup_iff (List.Perm.map _ ?_)).mp hids
      rw [List.append_assoc, List.append_assoc]
      exact List.perm_middle
    exact (List.nodup_cons.mp hperm).1 (List.mem_map.mpr ⟨v, hv, he.symm⟩)
  have hchain (hn : (lookAt lib inp k w).next = .repair) (id : SocketId)
      (hid : id ∈ repairChain w) : Justified (T ++ [lookEvent lib inp k w]) id := by
    rcases mem_repairChain.mp hid with hid | rfl
    · exact (hw.supersedes id hid).append _
    · exact hw.justified (.inr hn)
  refine ⟨?_, fun v hv => ?_⟩
  · rw [hT]
    refine ClosesJustified.append (hg.1.append (by simp [closedIds, lookEvent, MemberEvent.closedId]))
      fun id hid => ?_
    rcases (h.mem_closedIds hid : id ∈ w.supersedes ∨ _) with hid | ⟨rfl, hn⟩
    · exact (hw.supersedes id hid).append _
    · exact hw.justified hn
  · rw [hT]
    refine Graced.append ?_ (hrest v.id)
    rcases h.mem_cases hv with ⟨u, hu, hp⟩ | hk | hr
    · cases hp with
      | same => exact hother v hu
      | handed _ hn _ =>
        refine ⟨(hother u hu).clock, fun id hid => ?_⟩
        rcases List.mem_append.mp hid with hid | hid
        · exact (hother u hu).supersedes id hid
        · exact hchain hn id hid
    · cases hk with
      | later hd' => exact absurd hd (not_le.mpr hd')
      | keep _ hn hk =>
        have hnd : (lookAt lib inp k w).next ≠ .drop := by rcases hn with hn | ⟨hn, -⟩ <;> simp [hn]
        rw [hk]
        exact ⟨(hw.look hnd).clock, (hw.look hnd).supersedes⟩
      | recheck _ hn =>
        have hnd : (lookAt lib inp k w).next ≠ .drop := by simp [hn]
        exact ⟨(hw.look hnd).clock, (hw.look hnd).supersedes⟩
    · cases hr with
      | closed => exact ⟨by simp [replacement], by simp [replacement]⟩
      | overlaps _ hn => exact ⟨by simp [replacement], hchain hn⟩

end Turn

/-- Every run that is given no id twice closes members only with cause. -/
theorem graceKept_preserved (lib : Libsrt) (grp : SocketId) :
    Preserved lib grp (fun _ => True)
      (fun ws _ k T => Accounted ws k T ∧ ((spawnedIds T).Nodup → GraceKept ws T))
      (fun _ seen unseen spawned k T => Accounted (seen ++ unseen ++ spawned) k T ∧
        ((spawnedIds T).Nodup → GraceKept (seen ++ unseen ++ spawned) T)) := by
  have ha := accounted_preserved lib grp
  have hspawn {ws : List WatchedMember} {T events : List MemberEvent}
      (h : (spawnedIds T).Nodup → GraceKept ws T) (hc : closedIds events = [])
      (hl : ∀ id, looksOf id events = []) {ws' : List WatchedMember}
      (hws' : ∀ w ∈ ws', w.strandedSince = none ∧ w.supersedes = [])
      (hn : (spawnedIds (T ++ events)).Nodup) : GraceKept (ws ++ ws') (T ++ events) := by
    have h := h (nodup_of_append hn)
    refine ⟨h.1.append (by simp [hc]), fun w hw => ?_⟩
    rcases List.mem_append.mp hw with hw | hw
    · exact (h.2 w hw).append (hl _)
    · exact ⟨by simp [hws' w hw], by simp [hws' w hw]⟩
  refine
    { elapse := fun now d h => h
      skip := fun now h => ⟨ha.skip now h.1, h.2⟩
      reorder := fun now hp h => ⟨ha.reorder now hp h.1, fun hn =>
        ⟨(h.2 hn).1, fun w hw => (h.2 hn).2 w (hp.mem_iff.mp hw)⟩⟩
      connect := fun ho h hc => ⟨ha.connect ho h.1 hc, hspawn h.2 (by simp)
        (by simp [looksOf, spawnEvents, MemberEvent.readingOf]) fun w hw => ?_⟩
      add := fun ho h hf' hm => ⟨ha.add ho h.1 hf' hm, hspawn h.2 (by simp)
        (by simp [looksOf, MemberEvent.readingOf]) (by simp)⟩
      begin := fun h hg hn hr => ⟨ha.begin h.1 hg hn hr, fun hid => ⟨(h.2 hid).1, fun w hw => ?_⟩⟩
      turn := fun h he => ⟨ha.turn h.1 he, fun hn =>
        he.graceKept (h.1.watchedIds_nodup (nodup_of_append hn)) (h.2 (nodup_of_append hn))⟩
      finish := fun h => ⟨h.1.later (by simp), by simpa using h.2⟩ }
  · obtain ⟨e, -, rfl⟩ := List.mem_map.mp hw
    simp
  · obtain ⟨v, hv, i, -, -, rfl⟩ := mem_readLive (by simpa using hw)
    exact ⟨((h.2 hid).2 v hv).clock, ((h.2 hid).2 v hv).supersedes⟩

/-- A group as `CreateGroup` leaves it satisfies what every run keeps. -/
theorem graceKept_start (backup : Bool) : (GroupRun.start backup).Holds fun ws _ k T =>
    Accounted ws k T ∧ ((spawnedIds T).Nodup → GraceKept ws T) := by
  refine ⟨rfl, (accounted_start backup).2, fun _ => ⟨?_, ?_⟩⟩
  · intro before k id after h
    simp [GroupRun.start] at h
  · simp [GroupRun.start, SocketState.freshGroup, SocketState.fresh]

/-- If no id is given twice, every close of a member is justified by the looks at it before, so a
member that never read stranded for the grace, and resolved before its deadline, is never closed. -/
theorem closes_are_justified (lib : Libsrt) (grp : SocketId) (backup : Bool)
    (actions : List GroupRun.Action) :
    let T := ((GroupRun.start backup).run lib grp actions).trace
    (spawnedIds T).Nodup → ClosesJustified T ∧ ∀ id, ¬Justified T id → id ∉ closedIds T := by
  intro T hn
  have h : ((GroupRun.start backup).run lib grp actions).Holds _ :=
    (graceKept_preserved lib grp).holds_run (by simp) (graceKept_start backup)
  have hcloses : ClosesJustified T := (h.2.2 hn).1
  refine ⟨hcloses, fun id hj hc => hj ?_⟩
  obtain ⟨e, he, hid⟩ := List.mem_filterMap.mp hc
  cases e with
  | close k i =>
    obtain rfl : i = id := Option.some.inj hid
    obtain ⟨before, after, hT⟩ := List.append_of_mem he
    have hJ := (hcloses before k i after hT).append (.close k i :: after)
    rwa [← hT] at hJ
  | _ => cases hid

/-- A bond of one link, stranded: replaced after the grace, and closed once its
replacement has been up for the linger. -/
theorem closes_are_justified_stranded :
    let ep : GroupEndpoint := ⟨.v4 0x7f000001 9000, none, 1, 7⟩
    let lib := Libsrt.scripted
      (fun k => ⟨1, .connected, .pending, 1, 7⟩ ::
        if 8 < k then [⟨8, .connected, .running, 1, 7⟩] else [])
      (fun _ _ => .connected)
    let actions : List GroupRun.Action := [.connect [ep], .check, .elapse (fromMillis 500), .check,
      .elapse (fromMillis 100), .check, .elapse (fromSecs 1), .check]
    let T := ((GroupRun.start false).run lib 5 actions).trace
    spawnedIds T = [1, 8] ∧ closedIds T = [1] ∧
      (ClosesJustified T ∧ ∀ id, ¬Justified T id → id ∉ closedIds T) :=
  ⟨by decide +kernel, by decide +kernel, closes_are_justified _ _ _ _ (by decide +kernel)⟩

/-- After one failed listing an add claims the member the bond has already. Its looks read it
handshaking and stranded in turn, as each record of it has a grace clock of its own, and the second
closes it. -/
theorem closes_unjustified :
    let ep : GroupEndpoint := ⟨.v4 0x7f000001 9000, none, 1, 7⟩
    let lib : Libsrt :=
      { Libsrt.scripted (fun _ => []) fun k id =>
          if id = 1 ∧ (k = 2 ∨ k = 8) then .connecting else .connected with
        groupData := fun k j _ => if k = 1 ∧ j < 2 then none else some [⟨1, .connecting, .pending, 1, 7⟩]
        connectGroup := fun k _ _ => (0, fun _ => if k = 0 then (1, 0) else if k = 1 then (-1, 0) else (-1, 1001)) }
    let actions : List GroupRun.Action := [.connect [ep], .add ep, .check, .elapse (fromMillis 500), .check]
    let T := ((GroupRun.start false).run lib 5 actions).trace
    spawnedIds T = [1, 1] ∧
      (looksOf 1 T).map (fun l => (l.now, l.verdict)) = [(0, .handshaking), (0, .stranded),
        (fromMillis 500, .handshaking), (fromMillis 500, .stranded)] ∧
      closedIds T = [1] ∧ ¬(ClosesJustified T ∧ ∀ id, ¬Justified T id → id ∉ closedIds T) := by
  intro ep lib actions T
  have hclosed : closedIds T = [1] := by decide +kernel
  have hjust : ¬Justified T 1 := by decide +kernel
  refine ⟨by decide +kernel, by decide +kernel, hclosed, fun h => h.2 1 hjust ?_⟩
  rw [hclosed]
  exact List.mem_singleton_self 1

end SrtBridge
