import SrtBridge.Members.Turns
import SrtBridge.Members.Ledger

/-! When what a replacement superseded is closed. The deadline is set at the first look that finds
the replacement up, and stays set; so it counts from a look since when the replacement has been up
only if no later look read it otherwise. -/

namespace SrtBridge

/-- One look at a member: `left` is what the member supersedes after it. -/
structure MemberLook where
  step : ℕ
  now : Instant
  verdict : Verdict
  left : List SocketId

def MemberEvent.lookAtId (id : SocketId) : MemberEvent → Option MemberLook
  | .look k i now verdict _ left => if i = id then some ⟨k, now, verdict, left⟩ else none
  | _ => none

def memberLooks (id : SocketId) (T : List MemberEvent) : List MemberLook :=
  T.filterMap (MemberEvent.lookAtId id)

def Verdict.up (v : Verdict) : Bool := v = .confirmed || v = .masked

def MemberLook.lingers (l : MemberLook) : Bool := l.verdict.up && l.left ≠ []

/-- The last looks at the member all read it up, over the linger as it was at the first of them. -/
def UpForLinger (lib : Libsrt) (id : SocketId) (T : List MemberEvent) : Prop :=
  ∃ run ∈ (memberLooks id T).tails, (∀ l ∈ run, l.verdict.up = true) ∧
    ∃ first ∈ run.head?, ∃ last ∈ run.getLast?, first.now + supersededLinger lib first.step id ≤ last.now

/-- No look between one at which the member lingers and one that reads it up reads it otherwise. -/
def Steady (id : SocketId) (T : List MemberEvent) : Prop :=
  ∀ a b c, List.Sublist [a, b, c] (memberLooks id T) → a.lingers = true → c.verdict.up = true →
    b.verdict.up = true

/-- The deadline of a member counts from a look at which it lingered. -/
def Timed (lib : Libsrt) (T : List MemberEvent) (w : WatchedMember) : Prop :=
  ∀ closeAt, w.closeSupersededAt = some closeAt → ∃ l ∈ memberLooks w.id T, l.lingers = true ∧
    closeAt = l.now + supersededLinger lib l.step w.id

section Looks

variable {lib : Libsrt} {inp : CheckInput} {k : ℕ} {w : WatchedMember} {T T' : List MemberEvent} {id : SocketId}

theorem memberLooks_append : memberLooks id (T ++ T') = memberLooks id T ++ memberLooks id T' :=
  List.filterMap_append

theorem memberLooks_eq_nil (h : lookedIds T = []) : memberLooks id T = [] := by
  rw [memberLooks, List.filterMap_eq_nil_iff]
  intro e he
  have := List.filterMap_eq_nil_iff.mp h e he
  cases e with
  | look => contradiction
  | _ => rfl

theorem up_iff {v : Verdict} : v.up = true ↔ v = .confirmed ∨ v = .masked := by
  cases v <;> decide

theorem Timed.append (h : Timed lib T w) (T' : List MemberEvent) : Timed lib (T ++ T') w := by
  intro closeAt hc
  obtain ⟨l, hl, hat⟩ := h closeAt hc
  refine ⟨l, ?_, hat⟩
  rw [memberLooks_append]
  exact List.mem_append_left _ hl

theorem supersededLinger_pos (lib : Libsrt) (k : ℕ) (id : SocketId) : 0 < supersededLinger lib k id := by
  unfold supersededLinger
  exact Nat.lt_of_lt_of_le (by decide : 0 < supersededLingerSlack) (Nat.le_add_left _ _)

variable (lib inp k w) in
def turnLook : MemberLook :=
  ⟨k, inp.now, (lookAt lib inp k w).verdict, (lookAt lib inp k w).member.supersedes⟩

theorem memberLooks_events :
    memberLooks w.id ((lookAt lib inp k w).events k inp.now) = [turnLook lib inp k w] := by
  have hclose : memberLooks w.id (closeMembers k (lookAt lib inp k w).lingered) = [] :=
    memberLooks_eq_nil (lookedIds_closeMembers ..)
  have hlook : MemberEvent.lookAtId w.id (.look k (lookAt lib inp k w).member.id inp.now
      (lookAt lib inp k w).verdict (lookAt lib inp k w).member.resolveBy
      (lookAt lib inp k w).member.supersedes) = some (turnLook lib inp k w) :=
    if_pos (lookAt_id ..)
  rw [Look.events, memberLooks, List.filterMap_cons, hlook]
  exact congrArg (turnLook lib inp k w :: ·) hclose

theorem nextStep_closeSupersededAt {verdict : Verdict} {now : Instant} :
    (nextStep w verdict now).1.closeSupersededAt = w.closeSupersededAt := by
  cases verdict <;> rfl

variable (lib inp k w) in
/-- A look leaves the deadline, sets it while the member lingers, or comes at it or later and closes
what the member superseded. -/
theorem lookAt_deadline :
    (lookAt lib inp k w).lingered = [] ∧
        ((lookAt lib inp k w).member.closeSupersededAt = w.closeSupersededAt ∨
          (turnLook lib inp k w).lingers = true ∧ (lookAt lib inp k w).member.closeSupersededAt =
            some (inp.now + supersededLinger lib k w.id)) ∨
      (lookAt lib inp k w).verdict.up = true ∧ ∃ closeAt ≤ inp.now, w.closeSupersededAt = some closeAt ∧
        (lookAt lib inp k w).member.closeSupersededAt = some closeAt := by
  set v := (lookAt lib inp k w).verdict with hv
  have hl : (lookAt lib inp k w).lingered = (closeSuperseded lib k w v inp.now).2 := rfl
  have hm : (lookAt lib inp k w).member.closeSupersededAt =
      (closeSuperseded lib k w v inp.now).1.closeSupersededAt := nextStep_closeSupersededAt
  have hs : (lookAt lib inp k w).member.supersedes = (closeSuperseded lib k w v inp.now).1.supersedes :=
    nextStep_supersedes ..
  rw [hl, hm]
  by_cases hup : (v = .confirmed ∨ v = .masked) ∧ w.supersedes ≠ []
  swap
  · rw [closeSuperseded, if_neg hup]
    exact .inl ⟨rfl, .inl rfl⟩
  rw [closeSuperseded, if_pos hup] at hs ⊢
  dsimp only at hs ⊢
  cases hc : w.closeSupersededAt with
  | none =>
    have hlater : ¬inp.now + supersededLinger lib k w.id ≤ inp.now := by
      have hpos := supersededLinger_pos lib k w.id
      show ¬@LE.le ℕ _ (inp.now + supersededLinger lib k w.id) inp.now
      exact not_le.mpr (Nat.lt_add_of_pos_right hpos)
    rw [hc, Option.getD_none, if_neg hlater] at hs
    rw [Option.getD_none, if_neg hlater]
    have hleft : (turnLook lib inp k w).left = w.supersedes := hs
    refine .inl ⟨rfl, .inr ⟨?_, rfl⟩⟩
    rw [MemberLook.lingers, hleft, Bool.and_eq_true, decide_eq_true_eq]
    exact ⟨up_iff.mpr hup.1, hup.2⟩
  | some closeAt =>
    rw [Option.getD_some]
    split_ifs with hdue
    · exact .inr ⟨up_iff.mpr hup.1, closeAt, hdue, rfl, rfl⟩
    · exact .inl ⟨rfl, .inl rfl⟩

theorem lookAt_lingered (h : (lookAt lib inp k w).lingered ≠ []) :
    (lookAt lib inp k w).verdict.up = true ∧ ∃ closeAt ≤ inp.now, w.closeSupersededAt = some closeAt := by
  rcases lookAt_deadline lib inp k w with ⟨hn, -⟩ | ⟨hup, closeAt, hle, hc, -⟩
  · exact absurd hn h
  · exact ⟨hup, closeAt, hle, hc⟩

theorem Timed.look (h : Timed lib T w) {v : WatchedMember} (hid : v.id = w.id)
    (hc : v.closeSupersededAt = (lookAt lib inp k w).member.closeSupersededAt) :
    Timed lib (T ++ (lookAt lib inp k w).events k inp.now) v := by
  intro closeAt hat
  rw [hid, memberLooks_append, memberLooks_events]
  have hold (hw : w.closeSupersededAt = some closeAt) :
      ∃ l ∈ memberLooks w.id T ++ [turnLook lib inp k w], l.lingers = true ∧
        closeAt = l.now + supersededLinger lib l.step w.id := by
    obtain ⟨l, hl, hlat⟩ := h closeAt hw
    exact ⟨l, List.mem_append_left _ hl, hlat⟩
  rw [hc] at hat
  rcases lookAt_deadline lib inp k w with ⟨-, hsame | ⟨hling, hnew⟩⟩ | ⟨-, c, -, hw, hm⟩
  · exact hold (hsame ▸ hat)
  · rw [hnew, Option.some_inj] at hat
    exact ⟨_, List.mem_append_right _ (List.mem_singleton_self _), hling, hat.symm⟩
  · exact hold (hw.trans (hm.symm.trans hat))

/-- A member that reads up past its deadline has been up for the linger, if it is steady. -/
theorem Timed.upForLinger (h : Timed lib T w) (hs : Steady w.id (T ++ (lookAt lib inp k w).events k inp.now))
    (hup : (lookAt lib inp k w).verdict.up = true) {closeAt : Instant} (hle : closeAt ≤ inp.now)
    (hc : w.closeSupersededAt = some closeAt) :
    UpForLinger lib w.id (T ++ (lookAt lib inp k w).events k inp.now) := by
  obtain ⟨l, hl, hling, hat⟩ := h closeAt hc
  obtain ⟨before, after, hlooks⟩ := List.append_of_mem hl
  have hall : memberLooks w.id (T ++ (lookAt lib inp k w).events k inp.now) =
      before ++ (l :: after ++ [turnLook lib inp k w]) := by
    rw [memberLooks_append, memberLooks_events, hlooks, List.append_assoc]
  have hlup : l.verdict.up = true := (Bool.and_eq_true _ _ ▸ hling).1
  refine ⟨l :: after ++ [turnLook lib inp k w], ?_, fun b hb => ?_, l, rfl, turnLook lib inp k w, ?_, ?_⟩
  · rw [hall, List.mem_tails]
    exact List.suffix_append ..
  · simp only [List.cons_append, List.mem_cons, List.mem_append, List.not_mem_nil, or_false] at hb
    rcases hb with rfl | hb | rfl
    · exact hlup
    · refine hs l b (turnLook lib inp k w) ?_ hling hup
      rw [hall]
      have hlast : List.Sublist ([b] ++ [turnLook lib inp k w]) (after ++ [turnLook lib inp k w]) :=
        (List.singleton_sublist.mpr hb).append (List.Sublist.refl _)
      exact (hlast.cons_cons l).trans (List.sublist_append_right ..)
    · exact hup
  · rw [List.cons_append, Option.mem_def, List.getLast?_cons, List.getLast?_append]
    rfl
  · exact hat ▸ hle

end Looks

section Turn

variable {lib : Libsrt} {inp : CheckInput} {k : ℕ} {seen : List WatchedMember} {w : WatchedMember}
  {unseen spawned seen' unseen' spawned' : List WatchedMember} {events T : List MemberEvent}

theorem Exit.timed (h : Exit lib inp k seen w unseen spawned seen' unseen' spawned' events)
    (ht : ∀ v ∈ seen ++ w :: unseen ++ spawned, Timed lib T v) :
    ∀ v ∈ seen' ++ unseen' ++ spawned', Timed lib (T ++ events) v := by
  intro v hv
  have hw : Timed lib T w := ht w (by simp)
  rcases h.mem_cases hv with ⟨u, hu, hp⟩ | hk | hr
  · have hu' : u ∈ seen ++ w :: unseen ++ spawned := by
      simp only [List.mem_append, List.mem_cons] at hu ⊢
      tauto
    cases hp with
    | same | handed => exact (ht _ hu').append events
  · cases hk with
    | later => exact hw.append events
    | keep hd _ hv =>
      obtain ⟨rest, rfl, -⟩ := h.begins_with_look hd
      rw [← List.append_assoc]
      exact (hw.look (by rw [hv]; exact lookAt_id ..) (by rw [hv])).append rest
    | recheck hd =>
      obtain ⟨rest, rfl, -⟩ := h.begins_with_look hd
      rw [← List.append_assoc]
      exact (hw.look (lookAt_id ..) rfl).append rest
  · intro closeAt hc
    cases hr with
    | closed | overlaps => cases hc

theorem Exit.closes (h : Exit lib inp k seen w unseen spawned seen' unseen' spawned' events)
    {id : SocketId} (hid : id ∈ closedIds events) :
    (lookAt lib inp k w).verdict.up = true ∧ (lookAt lib inp k w).lingered ≠ [] ∨
      (lookAt lib inp k w).verdict = .gone ∨ w.id ∈ closedIds events ∧
        ((lookAt lib inp k w).next = .abandon ∨
          ∃ plan, .repair k w.id (repairChain w) plan ∈ events) := by
  have hling (hl : id ∈ (lookAt lib inp k w).lingered) :
      (lookAt lib inp k w).verdict.up = true ∧ (lookAt lib inp k w).lingered ≠ [] :=
    have hne := List.ne_nil_of_mem hl
    ⟨(lookAt_lingered hne).1, hne⟩
  have hmem : w.id ∈ repairChain w := mem_repairChain.mpr (.inr rfl)
  cases h with
  | later => simp at hid
  | keep | recheck => exact .inl (hling (by simpa using hid))
  | drop hd hn =>
    rw [closedIds_append, closedIds_look, closedIds_closeMembers, List.mem_append] at hid
    rcases hid with hid | hid
    · exact .inl (hling hid)
    · rcases lookAt_drop.mp hn with hg | ⟨-, hnil⟩
      · exact .inr (.inl hg)
      · rw [hnil] at hid
        cases hid
  | abandon hd hn =>
    refine .inr (.inr ⟨?_, .inl hn⟩)
    rw [closedIds_append, closedIds_closeMembers]
    exact List.mem_append_right _ List.mem_cons_self
  | @close plan hd hn hp =>
    refine .inr (.inr ⟨?_, .inr ⟨plan, ?_⟩⟩)
    · rw [closedIds_append, closedIds_closeMembers]
      exact List.mem_append_right _ hmem
    · exact List.mem_append_left _ (List.mem_append_right _ (List.mem_singleton_self _))
  | closeSpawn hd hn hp =>
    refine .inr (.inr ⟨?_, .inr ⟨.closeThenSpawn, ?_⟩⟩)
    · rw [closedIds_append, closedIds_append, closedIds_closeMembers]
      exact List.mem_append_left _ (List.mem_append_right _ hmem)
    · exact List.mem_append_left _ (List.mem_append_left _
        (List.mem_append_right _ (List.mem_singleton_self _)))
  | hand hd hn | overlap hd hn => simp [closedIds_repairEvents, hn] at hid

/-- A member that is up stays watched with what it still supersedes. -/
theorem Exit.up_stays (h : Exit lib inp k seen w unseen spawned seen' unseen' spawned' events)
    (hd : w.notBefore ≤ inp.now) (hup : (lookAt lib inp k w).verdict.up = true)
    (hne : (lookAt lib inp k w).member.supersedes ≠ []) :
    ∃ v ∈ seen', v.id = w.id ∧ v.supersedes = (lookAt lib inp k w).member.supersedes := by
  have hnot {P : Prop} (hv : (lookAt lib inp k w).verdict ≠ .confirmed)
      (hv' : (lookAt lib inp k w).verdict ≠ .masked) : P := by
    rcases up_iff.mp hup with h | h
    · exact absurd h hv
    · exact absurd h hv'
  have hrepair {P : Prop} (hn : (lookAt lib inp k w).next = .repair) : P := by
    rcases lookAt_repair hn with ⟨hv | hv, -⟩ | ⟨hv, -⟩ <;> exact hnot (by simp [hv]) (by simp [hv])
  cases h with
  | later hl => exact absurd hd (not_le.mpr hl)
  | keep _ _ hv =>
    rw [hv]
    exact ⟨_, List.mem_append_right _ (List.mem_singleton_self _), lookAt_id .., rfl⟩
  | recheck => exact ⟨_, List.mem_append_right _ (List.mem_singleton_self _), lookAt_id .., rfl⟩
  | drop _ hn =>
    rcases lookAt_drop.mp hn with hv | ⟨-, hs⟩
    · exact hnot (by simp [hv]) (by simp [hv])
    · exact absurd hs hne
  | abandon _ hn =>
    have hv := (lookAt_abandon hn).1
    exact hnot (by simp [hv]) (by simp [hv])
  | close _ hn | hand _ hn | closeSpawn _ hn | overlap _ hn => exact hrepair hn

end Turn

theorem timed_preserved (lib : Libsrt) (grp : SocketId) :
    Preserved lib grp (fun _ => True) (fun ws _ _ T => ∀ w ∈ ws, Timed lib T w)
      (fun _ seen unseen spawned _ T => ∀ w ∈ seen ++ unseen ++ spawned, Timed lib T w) := by
  have hnew {T : List MemberEvent} {w : WatchedMember} (hw : w.closeSupersededAt = none) : Timed lib T w := by
    intro closeAt hc
    rw [hw] at hc
    cases hc
  refine
    { elapse := fun _ _ h => h
      skip := fun _ h => h
      reorder := fun _ hp h w hw => h w (hp.mem_iff.mp hw)
      connect := fun _ h _ w hw => ?_
      add := fun _ h _ _ w hw => ?_
      begin := fun h _ _ _ w hw => ?_
      turn := fun h he => he.timed h
      finish := fun h w hw => h w (by simpa using hw) }
  · rcases List.mem_append.mp hw with hw | hw
    · exact (h w hw).append _
    · obtain ⟨e, -, rfl⟩ := List.mem_map.mp hw
      exact hnew rfl
  · rcases List.mem_append.mp hw with hw | hw
    · exact (h w hw).append _
    · rw [List.mem_singleton.mp hw]
      exact hnew rfl
  · obtain ⟨v, hv, i, -, -, rfl⟩ := mem_readLive (by simpa using hw)
    exact h v hv

/-- Why a turn at `u` may close what `u` superseded: `u` is up, and has been for the linger, or it is
gone, given up or replaced in turn. -/
def CloseCause (lib : Libsrt) (k : ℕ) (u : WatchedMember) (l : Look) (T events : List MemberEvent) : Prop :=
  l.verdict.up = true ∧ UpForLinger lib u.id T ∨
    l.verdict = .gone ∨
      u.id ∈ closedIds events ∧ (l.next = .abandon ∨ ∃ plan, .repair k u.id (repairChain u) plan ∈ events)

/-- What the turn of a check from `c` to `c'` does with superseded members: they are closed for a
cause, in a turn at the member that superseded them, and a member that is up stays watched as long
as it supersedes others. -/
structure Settles (lib : Libsrt) (inp : CheckInput) (c c' : Check) (events : List MemberEvent) : Prop where
  closed : ∀ u ∈ c.watched ++ c.spawned, ∀ id ∈ u.supersedes, id ∈ closedIds events →
    c.watched[c.idx]? = some u ∧ CloseCause lib c.step u (lookAt lib inp c.step u) c'.trace events
  kept : ∀ u, c.watched[c.idx]? = some u → u.notBefore ≤ inp.now →
    (lookAt lib inp c.step u).verdict.up = true → (lookAt lib inp c.step u).member.supersedes ≠ [] →
      ∃ v ∈ c'.watched, v.id = u.id ∧ v.supersedes = (lookAt lib inp c.step u).member.supersedes

/-- Every turn settles what its member superseded, if that member was steady. -/
theorem Exit.settles {lib : Libsrt} {inp : CheckInput} {k : ℕ} {seen : List WatchedMember} {w : WatchedMember}
    {unseen spawned seen' unseen' spawned' : List WatchedMember} {events T : List MemberEvent}
    (h : Exit lib inp k seen w unseen spawned seen' unseen' spawned' events)
    (honce : ∀ id, held id (seen ++ w :: unseen ++ spawned) ≤ 1) (ht : Timed lib T w)
    (hs : Steady w.id (T ++ events)) :
    Settles lib inp ⟨seen ++ w :: unseen, seen.length, spawned, k, T⟩
      ⟨seen' ++ unseen', seen'.length, spawned', k + 1, T ++ events⟩ events := by
  have hget : (seen ++ w :: unseen)[seen.length]? = some w := by simp
  constructor
  · intro u hu id hid hclosed
    -- a member is held once, so only the one looked at can lose what it superseded
    have hown : u = w := by
      by_contra hne
      have hother : u ∈ seen ++ unseen ++ spawned := by
        simp only [List.mem_append, List.mem_cons] at hu ⊢
        tauto
      have hchain : id ∈ repairChain w := by
        rw [mem_repairChain]
        exact (h.mem_closedIds hclosed).imp_right And.left
      have hle := honce id
      have hpos := held_pos_of_chain hother (mem_repairChain.mpr (.inl hid))
      have hw : 0 < (repairChain w).count id := List.count_pos_iff.mpr hchain
      simp only [held_append, held_cons] at hle hpos
      omega
    subst hown
    refine ⟨hget, (h.closes hclosed).imp_left fun hup => ⟨hup.1, ?_⟩⟩
    obtain ⟨-, closeAt, hle, hat⟩ := lookAt_lingered hup.2
    have hd : u.notBefore ≤ inp.now := by
      by_contra hlater
      cases h with
      | later => cases hclosed
      | _ => contradiction
    obtain ⟨rest, hrest, hnone⟩ := h.begins_with_look hd
    have hlooks : memberLooks u.id (T ++ events) =
        memberLooks u.id (T ++ (lookAt lib inp k u).events k inp.now) := by
      rw [hrest, ← List.append_assoc, memberLooks_append, memberLooks_eq_nil hnone, List.append_nil]
    rw [Steady, hlooks] at hs
    rw [UpForLinger, hlooks]
    exact ht.upForLinger hs hup.1 hle hat
  · intro u hu hd hup hne
    obtain rfl := Option.some.inj (hget.symm.trans hu)
    obtain ⟨v, hv, hsame⟩ := h.up_stays hd hup hne
    exact ⟨v, List.mem_append_left _ hv, hsame⟩

/-- At every turn of every check in every run: what a member superseded is closed on account of that
member being up only after it has been up for the linger, and otherwise only as it is gone, given up
or replaced in turn, if no id is given twice and no look between two that read it up read it otherwise. -/
theorem superseded_closed_if_steady (lib : Libsrt) (grp : SocketId) (backup : Bool)
    (actions : List GroupRun.Action) (n : ℕ) :
    let r := (GroupRun.start backup).run lib grp actions
    let c := r.turns lib grp n
    let c' := r.turns lib grp (n + 1)
    (spawnedIds c'.trace).Nodup → (∀ u ∈ c.watched, Steady u.id c'.trace) →
      ∃ events, c'.trace = c.trace ++ events ∧ Settles lib (r.checkInput lib grp) c c' events := by
  intro r c c' hn hs
  have hstart : (GroupRun.start backup).Holds fun ws _ k T => Accounted ws k T ∧ ∀ w ∈ ws, Timed lib T w :=
    ⟨rfl, (accounted_start backup).2, fun w hw => by cases hw⟩
  have hpres := (accounted_preserved lib grp).and (timed_preserved lib grp)
  have hrun : r.Holds _ := hpres.holds_run (fun _ _ => trivial) hstart
  obtain ⟨seen, unseen, spawned, k, T, hc, hacc, htimed⟩ := hpres.holds_turns hrun n
  have hc : c = ⟨seen ++ unseen, seen.length, spawned, k, T⟩ := hc
  have hc' : c' = checkTurn lib (r.checkInput lib grp) c := Function.iterate_succ_apply' ..
  cases unseen with
  | nil =>
    have hend : c' = c := by
      rw [hc', hc]
      exact checkTurn_end (by simp)
    have hget : c.watched[c.idx]? = none := by
      rw [hc]
      simp
    refine ⟨[], by rw [hend, List.append_nil], fun _ _ _ _ hid => (by cases hid), fun u hu => ?_⟩
    rw [hget] at hu
    cases hu
  | cons w unseen =>
    obtain ⟨seen', unseen', spawned', events, he, ht⟩ :=
      checkTurn_exit lib (r.checkInput lib grp) k seen w unseen spawned T
    have hafter : c' = ⟨seen' ++ unseen', seen'.length, spawned', k + 1, T ++ events⟩ := by
      rw [hc', hc]
      exact ht
    have hw : w ∈ seen ++ w :: unseen := by simp
    rw [hc, hafter] at hs
    rw [hafter] at hn
    rw [hc, hafter]
    refine ⟨events, rfl, he.settles (fun id => ?_) (htimed w (by simp)) (hs w hw)⟩
    have hle := hacc.held_le_one (nodup_of_append hn) id
    omega

/-- A bond of one link, stranded: its replacement is up, and closes it after the linger. -/
theorem superseded_closed_if_steady_bond :
    let ep : GroupEndpoint := ⟨.v4 0x7f000001 9000, none, 1, 7⟩
    let lib := Libsrt.scripted
      (fun k => ⟨1, .connected, .pending, 1, 7⟩ :: if 8 < k then [⟨8, .connected, .running, 1, 7⟩] else [])
      (fun _ _ => .connected)
    let actions : List GroupRun.Action := [.connect [ep], .check, .elapse (fromMillis 500), .check,
      .elapse (fromMillis 100), .check, .elapse (fromSecs 1)]
    let r := (GroupRun.start false).run lib 5 actions
    closedIds (r.turns lib 5 1).trace = [1] ∧ ∃ events, (r.turns lib 5 1).trace = (r.turns lib 5 0).trace ++ events ∧
      Settles lib (r.checkInput lib 5) (r.turns lib 5 0) (r.turns lib 5 1) events := by
  intro ep lib actions r
  refine ⟨by decide +kernel, superseded_closed_if_steady _ _ _ actions 0 (by decide +kernel) ?_⟩
  have hup : ∀ l ∈ memberLooks 8 (r.turns lib 5 1).trace, l.verdict.up = true := by decide +kernel
  have hid : ∀ u ∈ (r.turns lib 5 0).watched, u.id = 8 := by decide +kernel
  intro u hu a b c hsub _ _
  rw [hid u hu] at hsub
  exact hup b (hsub.subset (by simp))

/-- The replacement reads up, stranded 800 ms later, and up again another 200 ms later: what it
superseded is closed at that look, though it has been up for no time. -/
theorem superseded_closed_early :
    let ep : GroupEndpoint := ⟨.v4 0x7f000001 9000, none, 1, 7⟩
    let lib := Libsrt.scripted
      (fun k => ⟨1, .connected, .pending, 1, 7⟩ ::
        if 8 < k then [⟨8, .connected, if k = 14 then .pending else .running, 1, 7⟩] else [])
      (fun _ _ => .connected)
    let actions : List GroupRun.Action := [.connect [ep], .check, .elapse (fromMillis 500), .check,
      .elapse (fromMillis 100), .check, .elapse (fromMillis 800), .check, .elapse (fromMillis 200)]
    let r := (GroupRun.start false).run lib 5 actions
    (memberLooks 8 (r.turns lib 5 1).trace).map MemberLook.verdict = [.confirmed, .stranded, .confirmed] ∧
      closedIds (r.turns lib 5 1).trace = [1] ∧
        ¬∃ events, (r.turns lib 5 1).trace = (r.turns lib 5 0).trace ++ events ∧
          Settles lib (r.checkInput lib 5) (r.turns lib 5 0) (r.turns lib 5 1) events := by
  intro ep lib actions r
  have hclosed : closedIds (r.turns lib 5 1).trace = [1] := by decide +kernel
  refine ⟨by decide +kernel, hclosed, ?_⟩
  rintro ⟨events, ht, hs⟩
  have hevents : closedIds events = [1] := by
    have hbefore : closedIds (r.turns lib 5 0).trace = [] := by decide +kernel
    rw [ht, closedIds_append, hbefore] at hclosed
    exact hclosed
  have hsup : ∃ u ∈ (r.turns lib 5 0).watched, 1 ∈ u.supersedes ∧ u.id = 8 ∧
      (lookAt lib (r.checkInput lib 5) (r.turns lib 5 0).step u).verdict = .confirmed := by decide +kernel
  obtain ⟨u, hu, hmem, hid, hv⟩ := hsup
  have hone : 1 ∈ closedIds events := by rw [hevents]; exact List.mem_singleton_self _
  obtain ⟨-, ⟨-, hup⟩ | hgone | ⟨hself, -⟩⟩ := hs.closed u (List.mem_append_left _ hu) 1 hmem hone
  · rw [UpForLinger, hid] at hup
    exact absurd hup (by decide +kernel)
  · rw [hv] at hgone
    cases hgone
  · rw [hid, hevents] at hself
    exact absurd hself (by decide)

end SrtBridge
