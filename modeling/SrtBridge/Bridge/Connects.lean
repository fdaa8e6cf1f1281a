import SrtBridge.Bridge.Iterations

/-! The reply of a connect in progress: kept with the entry while that is `Connecting`,
and answered by whatever ends it. -/

namespace SrtBridge

open General

/-- Dead, without a receive channel, and neither a listener nor a group: a cleanup pass reaps
such an entry. -/
def SocketState.doomed (s : SocketState) : Bool :=
  isTerminalStatus s.lastStatus && !s.isListener && !s.isGroup && s.recvTx.isNone

/-- A connect waits only on an entry that is connecting, or, before a cleanup pass, on one
that is reaped by it. -/
def SocketState.Awaits (reaps : Bool) (s : SocketState) : Prop :=
  s.connectReply ≠ none → s.lastStatus = .connecting ∨ reaps = true ∧ s.doomed = true

section Awaits

variable {reaps : Bool} {s s' : SocketState}

theorem SocketState.awaits_congr (h : s.Awaits reaps) (hr : s'.connectReply = s.connectReply)
    (hq : s'.lastStatus = s.lastStatus) (hd : s'.doomed = s.doomed) : s'.Awaits reaps := by
  unfold SocketState.Awaits
  rw [hr, hq, hd]
  exact h

theorem SocketState.awaits_of_none (h : s.connectReply = none) : s.Awaits reaps :=
  fun hw => absurd h hw

end Awaits

/-- What a check leaves of a group's entry: other members to watch, and, when it was
connecting and reads connected afterwards, the status to go with it. -/
theorem GroupRun.checkGroup_entry (lib : Libsrt) (grp : SocketId) (r : GroupRun) : ∃ ws,
    (r.checkGroup lib grp).entry = { r.entry with watched := ws } ∨
      r.entry.watched.any (fun w => w.notBefore ≤ r.clock) = true ∧
        r.entry.lastStatus = .connecting ∧
          lib.getsockstate (r.step + 2 * r.entry.watched.length + 1) 0 grp = .connected ∧
            (r.checkGroup lib grp).entry = { r.entry with watched := ws }.updateStatus .connected := by
  have hlen : (readLive lib r.step r.entry.watched).length = r.entry.watched.length := by
    simpa using congrArg List.length (readLive_keys lib r.step r.entry.watched)
  have hsteps : r.step + r.entry.watched.length + 1 + r.entry.watched.length =
      r.step + 2 * r.entry.watched.length + 1 := by
    omega
  unfold GroupRun.checkGroup
  split_ifs with hdue
  · dsimp only
    rw [checkLoop_step hlen, hsteps]
    split_ifs with hrec
    · exact ⟨_, .inr ⟨hdue, hrec.1, hrec.2, rfl⟩⟩
    · exact ⟨_, .inl rfl⟩
  · exact ⟨r.entry.watched, .inl rfl⟩

def IoEvent.answers (r : ReplyId) : IoEvent → Bool
  | .answered r' _ => r' = r
  | _ => false

namespace Bridge

/-- A connect waits on the entry of `id`, which has a property. -/
def waiting (b : Bridge) (id : SocketId) (p : SocketState → Bool) : Bool :=
  (b.entry id).any fun e => e.connectReply.isSome && p e

def recovers (lib : Libsrt) (b : Bridge) (id : SocketId) (e : SocketState) : Bool :=
  e.lastStatus = .connecting && e.watched.any (fun w => w.notBefore ≤ b.clock) &&
    lib.getsockstate (b.step + 2 * e.watched.length + 1) 0 id = .connected

/-- The step ends the connecting of an entry on which a connect waits, or takes the entry's
reply from it, and answers nothing; `reaps` says whether a cleanup pass follows, which answers
for the dead entries it reaps. -/
def leavesConnect (lib : Libsrt) (reaps : Bool) (b : Bridge) : IoStep → Bool
  | .command (.listen id _ _) => b.waiting id fun _ => true
  | .command (.connect id addr _) =>
    b.waiting id fun _ => !(lib.connect b.step id addr < 0 && lib.lastSrtError b.step 0 ≠ .asyncFail) &&
      lib.getsockstate b.step 0 id ∈ [.connected, .connecting, .opened, .init]
  | .command (.registerSocket id _ _ _) =>
    b.waiting id fun e => !e.isGroup && lib.status b.step 0 id ≠ .connecting &&
      !(reaps && !e.isListener && isTerminalStatus (lib.status b.step 0 id) &&
        lib.status b.step 0 id ≠ e.lastStatus)
  | .command (.createGroup mode _ _) => b.waiting (lib.createGroup b.step mode) fun _ => true
  | .command (.connectGroup id eps _) =>
    b.waiting id fun _ => (SrtBridge.connectGroup lib b.step 0 id eps).refused.isNone
  | .event id flags =>
    b.waiting id fun e => flags.err && !flags.connect && !(e.isListener && flags.inp) &&
      (!e.isGroup || groupErrIsReal lib b.step id) && !(reaps && !e.isListener && !e.isGroup)
  | .check id => b.waiting id (b.recovers lib id)
  | .poll id =>
    b.waiting id fun e => lib.status b.step 0 id ∉ [e.lastStatus, .connecting, .broken, .closed] &&
      !(reaps && !e.isListener && !e.isGroup && isTerminalStatus (lib.status b.step 0 id))
  | _ => false

/-- Every connect that waits does so on an entry that may be waited on. -/
def ConnectsAwaited (reaps : Bool) (b : Bridge) : Prop :=
  ∀ id e, b.entry id = some e → e.Awaits reaps

section Entries

variable {lib : Libsrt} {b : Bridge} {id : SocketId} {e : SocketState}

theorem waiting_eq_false {p : SocketState → Bool} (h : b.waiting id p = false)
    (he : b.entry id = some e) (hw : e.connectReply ≠ none) : p e = false := by
  simpa [waiting, he, Option.isSome_iff_ne_none.mpr hw] using h

/-- The state poll records what it reads, and fails the connect of a dead entry. -/
theorem entry_poll (he : b.entry id = some e) : (b.poll lib id).entry id = some
    (if e.isGroup = true ∧ e.lastStatus = .init ∨ lib.status b.step 0 id = e.lastStatus then e
    else if lib.status b.step 0 id = .broken ∨ lib.status b.step 0 id = .closed then
      { e.updateStatus (lib.status b.step 0 id) with connectReply := none }
    else e.updateStatus (lib.status b.step 0 id)) := by
  have hfail {c : Bridge} {s : SocketState} (hc : c.entry id = some s) (err : SrtError) :
      (c.failConnect id err).entry id = some { s with connectReply := none } := by
    unfold failConnect
    rw [connectReply_some hc]
    cases hr : s.connectReply with
    | none =>
      have hsame : s = { s with connectReply := none } := by rw [← hr]
      rw [← hsame]
      exact hc
    | some reply =>
      dsimp only
      rw [modify_some hc, entry_answer, entry_setEntry, if_pos rfl]
  have hrec : (b.record id (lib.status b.step 0 id)).entry id =
      some (e.updateStatus (lib.status b.step 0 id)) := by
    rw [entry_record, if_pos rfl, he]
    rfl
  unfold poll
  rw [he]
  dsimp only
  split_ifs
  · exact he
  · exact hfail hrec _
  · exact hrec

theorem entry_poll_ne {i : SocketId} (hi : i ≠ id) : (b.poll lib id).entry i = b.entry i := by
  have hfail (c : Bridge) (err : SrtError) : (c.failConnect id err).entry i = c.entry i := by
    unfold failConnect
    split
    · rw [entry_answer, entry_modify, if_neg hi]
    · rfl
  unfold poll
  split
  · dsimp only
    split_ifs
    · rfl
    · rw [hfail, entry_record, if_neg hi]
    · rw [entry_record, if_neg hi]
  · rfl

/-- A check of a group gives it other members to watch, and finds it connected or not. -/
theorem entry_check (lib : Libsrt) (he : b.entry id = some e) : ∃ ws,
    (b.check lib id).entry id = some { e with watched := ws } ∨
      b.recovers lib id e = true ∧
        (b.check lib id).entry id = some ({ e with watched := ws }.updateStatus .connected) := by
  have hput (r : GroupRun) : (b.putGroup id r).entry id = some r.entry := by
    simp [putGroup, entry_setEntry]
  have hcheck : (b.check lib id).entry id = b.entry id ∨
      (b.check lib id).entry id = some ((b.groupRun e).checkGroup lib id).entry := by
    unfold check
    rw [he]
    dsimp only
    split_ifs
    · exact .inr (hput _)
    · exact .inr (hput _)
    · exact .inl he
  rcases hcheck with h | h
  · exact ⟨e.watched, .inl (h.trans he)⟩
  rw [h]
  obtain ⟨ws, hw | ⟨hdue, hc, hq, hw⟩⟩ := (b.groupRun e).checkGroup_entry lib id
  · exact ⟨ws, .inl (congrArg some hw)⟩
  · refine ⟨ws, .inr ⟨?_, congrArg some hw⟩⟩
    simp only [recovers, Bool.and_eq_true, decide_eq_true_eq]
    exact ⟨⟨hc, hdue⟩, hq⟩

theorem entry_check_ne {i : SocketId} (hi : i ≠ id) : (b.check lib id).entry i = b.entry i := by
  have hput (r : GroupRun) : (b.putGroup id r).entry i = b.entry i := by
    simp [putGroup, entry_setEntry, hi]
  unfold check
  split
  · dsimp only
    split_ifs
    · exact hput _
    · exact hput _
    · rfl
  · rfl

theorem entry_connectGroup (lib : Libsrt) (b : Bridge) (id : SocketId) (eps : List GroupEndpoint)
    (reply : ReplyId) (i : SocketId) :
    (b.connectGroup lib id eps reply).entry i = b.entry i ∨
      (SrtBridge.connectGroup lib b.step 0 id eps).refused = none ∧ i = id ∧ ∃ e ws,
        b.entry i = some e ∧ (b.connectGroup lib id eps reply).entry i =
          some ({ e with watched := ws }.updateStatus .connected) := by
  cases hr : (SrtBridge.connectGroup lib b.step 0 id eps).refused with
  | some err =>
    left
    simp [connectGroup, hr]
  | none =>
    cases he : b.entry id with
    | none =>
      left
      simp [connectGroup, hr, he]
    | some e =>
      obtain ⟨ws, -, hw⟩ := ((b.emit (.subscribed id)).groupRun e).connect_leaves hr
      by_cases hi : i = id
      · subst hi
        refine .inr ⟨rfl, rfl, e, ws, he, ?_⟩
        simp only [connectGroup, hr, entry_emit, he, entry_answer, putGroup, entry_emits,
          entry_setEntry, if_true]
        exact congrArg some hw
      · left
        simp [connectGroup, hr, he, putGroup, entry_setEntry, hi]

end Entries

section Awaited

variable {lib : Libsrt} {reaps : Bool} {b : Bridge} {id : SocketId}

/-- A step whose effect on an entry is not seen from its moves alone. -/
def IoStep.isDirect : IoStep → Bool
  | .command (.registerSocket _ _ _ _) | .command (.connectGroup _ _ _) | .poll _ | .check _ => true
  | _ => false

theorem awaits_keeps : KeepsEntry lib
    (fun b s => leavesConnect lib reaps b s = false ∧ s.isDirect = false) id
      (fun e _ => ∀ s, e = some s → s.Awaits reaps) where
  note := fun _ _ h => h
  backlog := by
    rintro e tr l h _ ⟨⟩
    exact SocketState.awaits_congr (h e rfl) rfl rfl rfl
  change := by
    intro b₀ s e new es tr hok _ _ hch h
    obtain ⟨hok, hdirect⟩ := hok
    -- nothing waits on the entry at the step's start, where the step would leave it waiting
    have hidle {p : SocketState → Bool} {e : SocketState} (hp : b₀.waiting id p = false)
        (he : b₀.entry id = some e) (hpe : p e = true) : e.connectReply = none := by
      by_contra hw
      rw [waiting_eq_false hp he hw] at hpe
      cases hpe
    cases hch with
    | enter he =>
      rintro _ ⟨⟩
      cases he <;> exact SocketState.awaits_of_none rfl
    | register hs =>
      rw [hs] at hdirect
      cases hdirect
    | provide =>
      rintro _ ⟨⟩
      exact SocketState.awaits_congr (h _ rfl) rfl rfl rfl
    | record hc =>
      rename_i e q
      rintro _ ⟨⟩
      cases hc with
      | registered hs | joined hs | recovered hs | polled hs =>
        rw [hs] at hdirect
        cases hdirect
      | connected hs h₀ ha hq =>
        refine SocketState.awaits_of_none ?_
        rw [SocketState.updateStatus_connectReply]
        rw [hs] at hok
        refine hidle hok h₀ ?_
        simp only [not_and, ne_eq, not_not] at ha
        simpa [hq, or_iff_not_imp_left] using ha
      | errored hs hf hi hg hc h₀ =>
        rename_i flags
        intro hw
        rw [SocketState.updateStatus_connectReply] at hw
        have hcon : flags.connect = false := by
          by_contra hcon
          exact hw (hc (eq_true_of_ne_false hcon))
        obtain ⟨l, hl⟩ := h₀ hcon
        rw [hs] at hok
        have hno := waiting_eq_false hok hl hw
        have hlis : (e.isListener && flags.inp) = false := by
          simpa [hl] using hi
        have hgrp : (!e.isGroup || groupErrIsReal lib b₀.step id) = true := by
          simpa [or_iff_not_imp_left] using hg
        simp only [hf, hcon, hlis, hgrp, Bool.not_false, Bool.and_self, Bool.true_and,
          Bool.not_eq_false', Bool.and_eq_true, Bool.not_eq_true'] at hno
        right
        simp [SocketState.doomed, SocketState.updateStatus, isTerminalStatus, hno]
    | listen hs h₀ =>
      rintro _ ⟨⟩
      rw [hs] at hok
      have hnone := hidle hok h₀ rfl
      exact SocketState.awaits_of_none (by simpa using hnone)
    | await => exact fun _ he _ => .inl (Option.some.inj he ▸ SocketState.updateStatus_lastStatus ..)
    | complete =>
      rintro _ ⟨⟩
      exact SocketState.awaits_of_none (SocketState.updateStatus_connectReply ..)
    | fail =>
      rintro _ ⟨⟩
      exact SocketState.awaits_of_none rfl
    | watch =>
      rintro _ ⟨⟩
      exact SocketState.awaits_congr (h _ rfl) rfl rfl rfl
    | close => rintro _ ⟨⟩

theorem registerSocket_awaited {r d t : ChannelId} (h : b.ConnectsAwaited reaps)
    (hok : leavesConnect lib reaps b (.command (.registerSocket id r d t)) = false) :
    (b.registerSocket lib id r d t).ConnectsAwaited reaps := by
  intro i e he
  rw [entry_registerSocket] at he
  by_cases hi : i = id
  · subst hi
    rw [if_pos rfl] at he
    cases hent : b.entry i with
    | none =>
      rw [hent] at he
      obtain rfl := Option.some.inj he
      refine SocketState.awaits_of_none ?_
      split_ifs
      · rfl
      · exact SocketState.updateStatus_connectReply ..
    | some e₀ =>
      rw [hent] at he
      obtain rfl := Option.some.inj he
      have h₀ := h i e₀ hent
      dsimp only [Option.getD_some]
      intro hw
      have hw₀ : e₀.connectReply ≠ none := by
        split_ifs at hw
        · exact hw
        · simpa using hw
      have hno := waiting_eq_false hok hent hw₀
      simp only [ne_eq, decide_not, Bool.and_eq_false_iff, Bool.not_eq_false', decide_eq_true_eq,
        Bool.and_eq_true, Bool.not_eq_true', decide_eq_false_iff_not] at hno
      split_ifs with hkeep
      · left
        show e₀.lastStatus = .connecting
        rcases hno with (hg | hq) | ⟨-, hne⟩
        · refine (h₀ hw₀).resolve_right fun hd => ?_
          simp [SocketState.doomed, hg] at hd
        · rcases hkeep with hg | hsame
          · refine (h₀ hw₀).resolve_right fun hd => ?_
            simp only [SocketState.doomed, Bool.and_eq_true, Bool.not_eq_true'] at hd
            exact absurd hg (by simp [hd.2.1.2])
          · exact hsame.symm.trans hq
        · rcases hkeep with hg | hsame
          · refine (h₀ hw₀).resolve_right fun hd => ?_
            simp only [SocketState.doomed, Bool.and_eq_true, Bool.not_eq_true'] at hd
            exact absurd hg (by simp [hd.2.1.2])
          · exact absurd hsame hne
      · rw [not_or] at hkeep
        rcases hno with (hg | hq) | ⟨⟨⟨hreap, hlis⟩, hdead⟩, -⟩
        · exact absurd hg hkeep.1
        · exact .inl ((SocketState.updateStatus_lastStatus ..).trans hq)
        · right
          refine ⟨hreap, ?_⟩
          simp [SocketState.doomed, SocketState.updateStatus, hdead, hlis, hkeep.1]
  · rw [if_neg hi] at he
    exact h i e he

theorem poll_awaited (h : b.ConnectsAwaited reaps) (hok : leavesConnect lib reaps b (.poll id) = false) :
    (b.poll lib id).ConnectsAwaited reaps := by
  intro i e he
  by_cases hi : i = id
  · subst hi
    cases hent : b.entry i with
    | none =>
      have hnone : b.poll lib i = b := by
        unfold poll
        rw [hent]
      rw [hnone, hent] at he
      cases he
    | some e₀ =>
      rw [entry_poll hent] at he
      obtain rfl := Option.some.inj he
      split_ifs with hskip hfail
      · exact h i e₀ hent
      · exact SocketState.awaits_of_none rfl
      · intro hw
        rw [SocketState.updateStatus_connectReply] at hw
        have hno := waiting_eq_false hok hent hw
        rw [not_or] at hskip
        by_cases hc : lib.status b.step 0 i = .connecting
        · exact .inl ((SocketState.updateStatus_lastStatus ..).trans hc)
        · right
          simp only [List.mem_cons, List.not_mem_nil, or_false, hskip.2, hc, hfail,
            not_false_eq_true, decide_true, Bool.true_and, Bool.not_eq_false', Bool.and_eq_true,
            Bool.not_eq_true'] at hno
          simp [SocketState.doomed, SocketState.updateStatus, hno]
  · rw [entry_poll_ne hi] at he
    exact h i e he

theorem check_awaited (h : b.ConnectsAwaited reaps)
    (hok : leavesConnect lib reaps b (.check id) = false) : (b.check lib id).ConnectsAwaited reaps := by
  intro i e he
  by_cases hi : i = id
  · subst hi
    cases hent : b.entry i with
    | none =>
      have hnone : b.check lib i = b := by
        unfold check
        rw [hent]
      rw [hnone, hent] at he
      cases he
    | some e₀ =>
      obtain ⟨ws, hw | ⟨hrec, hw⟩⟩ := entry_check lib hent
      · rw [hw] at he
        obtain rfl := Option.some.inj he
        exact SocketState.awaits_congr (h i e₀ hent) rfl rfl rfl
      · rw [hw] at he
        obtain rfl := Option.some.inj he
        refine SocketState.awaits_of_none ?_
        rw [SocketState.updateStatus_connectReply]
        by_contra hwait
        rw [waiting_eq_false hok hent hwait] at hrec
        cases hrec
  · rw [entry_check_ne hi] at he
    exact h i e he

theorem connectGroup_awaited {eps : List GroupEndpoint} {reply : ReplyId}
    (h : b.ConnectsAwaited reaps)
    (hok : leavesConnect lib reaps b (.command (.connectGroup id eps reply)) = false) :
    (b.connectGroup lib id eps reply).ConnectsAwaited reaps := by
  intro i e he
  rcases entry_connectGroup lib b id eps reply i with hsame | ⟨hr, rfl, e₀, ws, hent, hnew⟩
  · exact h i e (hsame ▸ he)
  · rw [hnew] at he
    obtain rfl := Option.some.inj he
    refine SocketState.awaits_of_none ?_
    rw [SocketState.updateStatus_connectReply]
    by_contra hwait
    have hno := waiting_eq_false hok hent hwait
    rw [hr] at hno
    cases hno

/-- A step that leaves no connect behind keeps every connect awaited. -/
theorem ioStep_awaited {s : IoStep} (h : b.ConnectsAwaited reaps)
    (hok : leavesConnect lib reaps b s = false) : (b.ioStep lib s).ConnectsAwaited reaps := by
  have hmoves (hd : s.isDirect = false) : (b.ioStep lib s).ConnectsAwaited reaps :=
    fun i => awaits_keeps.step ⟨hok, hd⟩ (h i)
  cases s with
  | command cmd =>
    cases cmd with
    | registerSocket => exact registerSocket_awaited h hok
    | connectGroup => exact connectGroup_awaited h hok
    | _ => exact hmoves rfl
  | poll => exact poll_awaited h hok
  | check => exact check_awaited h hok
  | _ => exact hmoves rfl

theorem cleanup_awaited (h : b.ConnectsAwaited true) : b.cleanupZombies.ConnectsAwaited false := by
  intro i e he hw
  rw [entry_cleanupZombies] at he
  split_ifs at he with hz
  rcases h i e he hw with hc | ⟨-, hd⟩
  · exact .inl hc
  · simp only [SocketState.doomed, Bool.and_eq_true, Option.isNone_iff_eq_none] at hd
    obtain ⟨⟨⟨hdead, hlis⟩, hgrp⟩, hrx⟩ := hd
    refine absurd (mem_zombies.mpr ⟨e, he, ?_⟩) hz
    simp [isZombie, recvClosed, hdead, hlis, hgrp, hrx]

end Awaited

/-- A connect that waits on an entry before the step still does after it, or has been answered
in it, with success exactly when the step has recorded the entry as connected. -/
def Settles (lib : Libsrt) (b : Bridge) (s : IoStep) : Prop :=
  ∀ id r, b.connectReply id = some r →
    let b' := b.ioStep lib s
    b'.connectReply id = some r ∨
      ∃ result, .answered r (.done result) ∈ b'.trace.drop b.trace.length ∧
        (result = .ok () ↔ .recorded id .connected ∈ b'.trace.drop b.trace.length)

/-- The connect `r` waits on the entry, or has been answered since the trace was `tr₀`. -/
def Settling (id : SocketId) (r : ReplyId) (tr₀ : List IoEvent) (e : Option SocketState)
    (tr : List IoEvent) : Prop :=
  ∃ es, tr = tr₀ ++ es ∧
    (e.bind SocketState.connectReply = some r ∧ .recorded id .connected ∉ es ∨
      e.bind SocketState.connectReply = none ∧ ∃ result, .answered r (.done result) ∈ es ∧
        (result = .ok () ↔ .recorded id .connected ∈ es))

section Settles

variable {lib : Libsrt} {reaps : Bool} {b : Bridge} {id : SocketId} {r : ReplyId}
  {tr₀ tr es : List IoEvent}

theorem Settling.keep {e e' : Option SocketState} (h : Settling id r tr₀ e tr)
    (hes : .recorded id .connected ∉ es)
    (hr : e'.bind SocketState.connectReply = e.bind SocketState.connectReply) :
    Settling id r tr₀ e' (tr ++ es) := by
  obtain ⟨es₀, rfl, hst⟩ := h
  refine ⟨es₀ ++ es, List.append_assoc .., ?_⟩
  rw [hr]
  rcases hst with ⟨hw, hno⟩ | ⟨hw, result, hin, hiff⟩
  · refine .inl ⟨hw, fun hmem => ?_⟩
    exact (List.mem_append.mp hmem).elim hno hes
  · refine .inr ⟨hw, result, List.mem_append_left _ hin, hiff.trans ?_⟩
    rw [List.mem_append, or_iff_left hes]

theorem Settling.answer {e : SocketState} {e' : Option SocketState} {reply : ReplyId}
    {result : Except SrtError Unit} (h : Settling id r tr₀ (some e) tr)
    (hr : e.connectReply = some reply) (hin : .answered reply (.done result) ∈ es)
    (hiff : result = .ok () ↔ .recorded id .connected ∈ es)
    (hnone : e'.bind SocketState.connectReply = none) : Settling id r tr₀ e' (tr ++ es) := by
  obtain ⟨es₀, rfl, hst⟩ := h
  refine ⟨es₀ ++ es, List.append_assoc .., .inr ⟨hnone, result, ?_⟩⟩
  rw [Option.bind_some, hr] at hst
  rcases hst with ⟨hw, hno⟩ | ⟨hw, -⟩
  · obtain rfl := Option.some.inj hw
    refine ⟨List.mem_append_right _ hin, hiff.trans ?_⟩
    rw [List.mem_append, or_iff_right hno]
  · cases hw

theorem settling_keeps : KeepsEntry lib
    (fun b s => leavesConnect lib reaps b s = false ∧ s.isCheck = false ∧ b.connectReply id = some r)
      id (Settling id r tr₀) where
  note := by
    intro b₀ s e tr x _ hx h
    refine h.keep ?_ rfl
    rw [List.mem_singleton]
    rintro rfl
    rcases hx.aside with ha | ha <;> simp [IoEvent.isNote, IoEvent.subject] at ha
  backlog := by
    intro e tr l h
    exact h
  change := by
    intro b₀ s e new es tr hok _ _ hch h
    obtain ⟨hok, hcheck, hw₀⟩ := hok
    obtain ⟨e₀, he₀, hr₀⟩ := Option.bind_eq_some_iff.mp hw₀
    have hleft {p : SocketState → Bool} (hp : b₀.waiting id p = false) : p e₀ = false :=
      waiting_eq_false hp he₀ (by simp [hr₀])
    cases hch with
    | enter he =>
      cases he with
      | socket hs h₀ | listener hs h₀ => cases he₀.symm.trans h₀
      | group hs hid =>
        rw [hs, leavesConnect, hid] at hok
        cases hleft hok
    | register | provide => exact h.keep (by simp) rfl
    | record hc =>
      rename_i e q
      have hne : q ≠ .connected := by
        cases hc with
        | registered hs hg h₀ =>
          intro hq
          rw [hs] at hok
          have hno := hleft hok
          rw [he₀] at h₀
          rw [h₀, Option.getD_some] at hg
          simp only at hg
          simp [hg, hq, isTerminalStatus] at hno
        | connected hs h₀ ha hq =>
          rw [hs] at hok
          have hno := hleft hok
          simp only [not_and, ne_eq, not_not] at ha
          simp [hq] at hno
          exact absurd (ha hno.1) hno.2
        | joined hs hr =>
          rw [hs] at hok
          have hno := hleft hok
          rw [hr] at hno
          cases hno
        | errored => simp
        | recovered hs =>
          rw [hs] at hcheck
          cases hcheck
        | polled hs h₀ hg hn =>
          intro hq
          rw [hs] at hok
          have hno := hleft hok
          obtain rfl := Option.some.inj (he₀.symm.trans h₀)
          rw [hq] at hn
          simp [hq, hn, isTerminalStatus] at hno
      refine h.keep ?_ (SocketState.updateStatus_connectReply ..)
      simpa using hne.symm
    | listen => exact h.keep (by simp) (SocketState.updateStatus_connectReply ..)
    | await hs h₀ ha hq =>
      rw [hs] at hok
      have hno := hleft hok
      have hstate : lib.getsockstate b₀.step 0 id ∈ [.connected, .connecting, .opened, .init] :=
        List.mem_cons_of_mem _ hq
      simp only [not_and, ne_eq, not_not] at ha
      simp [hstate] at hno
      exact absurd (ha hno.1) hno.2
    | complete hs hf hi h₀ hr hq =>
      refine h.answer hr (List.mem_cons_self ..) ?_ (SocketState.updateStatus_connectReply ..)
      rcases hq with ⟨-, rfl, rfl⟩ | ⟨-, rfl, err, rfl⟩ <;> simp
    | fail hs hr => exact h.answer hr (List.mem_singleton_self _) (by simp) rfl
    | watch hes =>
      refine h.keep (fun hmem => ?_) rfl
      obtain ⟨m, hm⟩ := hes _ hmem
      cases hm
    | close hpre hcl =>
      rename_i e pre post
      have hplain : .recorded id .connected ∉ pre := fun hmem => by
        simpa [IoEvent.isPlain] using hpre _ hmem
      have hdone (err : SrtError) : Settling id r tr₀ none (tr ++ (pre ++ .closed id :: .released id ::
          (e.connectReply.map (.answered · (.done (.error err)))).toList)) := by
        cases hr : e.connectReply with
        | none => exact h.keep (by simp [hplain]) (by simp [hr])
        | some reply =>
          have hin : .answered reply (.done (.error err)) ∈ pre ++ IoEvent.closed id :: .released id ::
              ((some reply).map (IoEvent.answered · (.done (.error err)))).toList := by
            simp
          exact h.answer hr hin (by simp [hplain]) rfl
      cases hcl with
      | listen hs =>
        rw [hs] at hok
        cases hleft hok
      | close | shutdown | reaped => exact hdone _

/-- A step that leaves no connect behind answers every connect it ends. -/
theorem ioStep_settles {s : IoStep} (hok : leavesConnect lib reaps b s = false) : Settles lib b s := by
  intro id r hw b'
  cases hc : s.isCheck with
  | true =>
    left
    obtain ⟨i, rfl⟩ : ∃ i, s = .check i := by
      cases s <;> simp_all [IoStep.isCheck]
    obtain ⟨e, he, hr⟩ := Option.bind_eq_some_iff.mp hw
    by_cases hi : id = i
    · subst hi
      obtain ⟨ws, hent | ⟨-, hent⟩⟩ := entry_check lib he
      · exact (connectReply_some hent).trans hr
      · exact (connectReply_some hent).trans ((SocketState.updateStatus_connectReply ..).trans hr)
    · exact (connectReply_some ((entry_check_ne hi).trans he)).trans hr
  | false =>
    have hstart : Settling id r b.trace (b.entry id) b.trace :=
      ⟨[], (List.append_nil _).symm, .inl ⟨hw, List.not_mem_nil⟩⟩
    obtain ⟨es, htr, ⟨hkept, -⟩ | ⟨-, result, hin, hiff⟩⟩ :=
      settling_keeps.step ⟨hok, hc, hw⟩ hstart
    · exact .inl hkept
    · right
      rw [htr, List.drop_left]
      exact ⟨result, hin, hiff⟩

end Settles

/-- At most `n` times has `r` been answered, or does it still wait on the one entry that has it. -/
def Asked (r : ReplyId) (n : ℕ) (b : Bridge) : Prop :=
  ∃ w : Option SocketId, (∀ id, b.connectReply id = some r → w = some id) ∧
    b.trace.countP (IoEvent.answers r) + w.toList.length ≤ n

section Asked

variable {lib : Libsrt} {b b' : Bridge} {r : ReplyId} {n : ℕ} {es : List IoEvent}

theorem Asked.mono {n' : ℕ} (h : Asked r n b) (hn : n ≤ n') : Asked r n' b := by
  obtain ⟨w, hw, hle⟩ := h
  exact ⟨w, hw, hle.trans hn⟩

theorem Asked.keep (h : Asked r n b) (hes : es.countP (IoEvent.answers r) = 0)
    (hw : ∀ id, b'.connectReply id = some r → b.connectReply id = some r)
    (ht : b'.trace = b.trace ++ es) : Asked r n b' := by
  obtain ⟨w, hwait, hle⟩ := h
  refine ⟨w, fun id hid => hwait id (hw id hid), ?_⟩
  rw [ht, List.countP_append, hes]
  exact hle

theorem Asked.answer {i : SocketId} (h : Asked r n b) (hi : b.connectReply i = some r)
    (hes : es.countP (IoEvent.answers r) = 1) (hnone : b'.connectReply i = none)
    (hother : ∀ i', i' ≠ i → b'.connectReply i' = b.connectReply i') (ht : b'.trace = b.trace ++ es) :
    Asked r n b' := by
  obtain ⟨w, hwait, hle⟩ := h
  obtain rfl := hwait i hi
  refine ⟨none, fun id hid => ?_, ?_⟩
  · by_cases hne : id = i
    · rw [hne, hnone] at hid
      cases hid
    · rw [hother id hne] at hid
      exact absurd (Option.some.inj (hwait id hid)).symm hne
  · rw [ht, List.countP_append, hes]
    exact hle

theorem countP_answers_plain (h : ∀ x ∈ es, x.isPlain = true) : es.countP (IoEvent.answers r) = 0 := by
  rw [List.countP_eq_zero]
  intro x hx
  have hp := h x hx
  cases x with
  | answered => cases hp
  | _ => exact Bool.false_ne_true

/-- A change answers only the connect that waits on its entry, which then waits no more. -/
theorem Change.answers {s : IoStep} {k : ℕ} {e₀ e new : Option SocketState} {i : SocketId}
    (h : Change lib s k e₀ i e new es) (hs : ∀ cmd, s = .command cmd → cmd.reply ≠ some r) :
    (es.countP (IoEvent.answers r) = 0 ∧
        (new.bind SocketState.connectReply = some r → e.bind SocketState.connectReply = some r)) ∨
      e.bind SocketState.connectReply = some r ∧ new.bind SocketState.connectReply = none ∧
        es.countP (IoEvent.answers r) = 1 := by
  cases h with
  | enter he =>
    refine .inl ⟨by simp [IoEvent.answers], fun hw => ?_⟩
    cases he <;> cases hw
  | register | provide => exact .inl ⟨by simp [IoEvent.answers], fun hw => hw⟩
  | record | listen => exact .inl ⟨by simp [IoEvent.answers], fun hw => by simpa using hw⟩
  | await hs' =>
    rename_i e addr reply _ _ _
    refine .inl ⟨?_, fun hw => ?_⟩
    · cases e.connectReply <;> simp [IoEvent.answers]
    · rw [Option.bind_some, SocketState.updateStatus_connectReply] at hw
      exact absurd hw (hs _ hs')
  | complete hs' hf hi h₀ hr =>
    rename_i e flags reply result q _
    by_cases hreply : reply = r
    · exact .inr ⟨hreply ▸ hr, SocketState.updateStatus_connectReply .., by simp [IoEvent.answers, hreply]⟩
    · exact .inl ⟨by simp [IoEvent.answers, hreply], fun hw => by simp at hw⟩
  | fail hs' hr =>
    rename_i e reply err _
    by_cases hreply : reply = r
    · exact .inr ⟨hreply ▸ hr, rfl, by simp [IoEvent.answers, hreply]⟩
    · exact .inl ⟨by simp [IoEvent.answers, hreply], fun hw => by simp at hw⟩
  | watch hes =>
    refine .inl ⟨?_, fun hw => hw⟩
    rw [List.countP_eq_zero]
    intro x hx
    obtain ⟨m, rfl⟩ := hes x hx
    simp [IoEvent.answers]
  | close hpre hcl =>
    rename_i e pre post
    have hnone : pre.countP (IoEvent.answers r) = 0 := countP_answers_plain hpre
    have hpost : post.countP (IoEvent.answers r) = 0 ∨
        e.connectReply = some r ∧ post.countP (IoEvent.answers r) = 1 := by
      cases hr : e.connectReply with
      | none =>
        left
        cases hcl <;> simp [hr]
      | some reply =>
        by_cases hreply : reply = r
        · cases hcl <;> simp [hr, hreply, IoEvent.answers]
        · left
          cases hcl <;> simp [hr, hreply, IoEvent.answers]
    have hcount : (pre ++ .closed i :: .released i :: post).countP (IoEvent.answers r) =
        post.countP (IoEvent.answers r) := by
      rw [List.countP_append, hnone, Nat.zero_add]
      simp [IoEvent.answers]
    rw [hcount]
    rcases hpost with hzero | ⟨hr, hone⟩
    · exact .inl ⟨hzero, fun hw => by simp at hw⟩
    · exact .inr ⟨hr, rfl, hone⟩

/-- Only the command that brings `r` gives it to an entry or answers it at once. -/
theorem asked_keeps : Keeps lib (fun _ s => ∀ cmd, s = .command cmd → cmd.reply ≠ some r) (Asked r n) where
  moved := by
    intro b₀ s b b' hok _ _ hm h
    have hsame (he : ∀ i, b'.entry i = b.entry i) (i : SocketId) :
        b'.connectReply i = some r → b.connectReply i = some r := by
      unfold connectReply
      rw [he]
      exact id
    cases hm with
    | note hes he ht =>
      exact h.keep (countP_answers_plain hes) (hsame he) ht
    | answer hs hr hx =>
      refine h.keep ?_ (hsame fun _ => rfl) rfl
      have hne := hok _ hs
      rw [hr, ne_eq, Option.some.injEq] at hne
      rcases hx with rfl | ⟨a, rfl⟩ <;> simp [IoEvent.answers, hne]
    | arm | subscribe | listening | accepted =>
      exact h.keep (by simp [IoEvent.answers]) (hsame fun _ => rfl) rfl
    | change hch he ht hc =>
      rename_i i new es
      have hother (i' : SocketId) (hi : i' ≠ i) : b'.connectReply i' = b.connectReply i' := by
        unfold connectReply
        rw [he, if_neg hi]
      have hnew : b'.connectReply i = new.bind SocketState.connectReply := by
        unfold connectReply
        rw [he, if_pos rfl]
      rcases hch.answers hok with ⟨hes, hw⟩ | ⟨hr, hnone, hes⟩
      · refine h.keep hes (fun i' hi' => ?_) ht
        by_cases hi : i' = i
        · subst hi
          rw [hnew] at hi'
          exact hw hi'
        · exact hother i' hi ▸ hi'
      · exact h.answer hr hes (hnew.trans hnone) hother ht
    | take => exact h.keep (by simp [IoEvent.answers]) (hsame fun _ => entry_deliver ..) (trace_deliver _)
    | send =>
      rename_i i _
      obtain ⟨es, ht, hes⟩ := trace_handleSend lib b i
      obtain ⟨l, hl⟩ := entry_handleSend lib b i
      refine h.keep ?_ (fun i' hi' => ?_) ht
      · rw [List.countP_eq_zero]
        intro x hx
        obtain ⟨data, ok, rfl⟩ := hes x hx
        simp [IoEvent.answers]
      · unfold connectReply at hi' ⊢
        rw [hl] at hi'
        split_ifs at hi' with hi
        · subst hi
          rw [Option.bind_map] at hi'
          exact hi'
        · exact hi'
    | handOver => exact h.keep (List.countP_nil) (hsame fun _ => rfl) (List.append_nil _).symm
  tokio := by
    intro b t h
    cases t <;> exact h
  same := by
    intro b b' he ht _ h
    refine h.keep (List.countP_nil (p := IoEvent.answers r)) (fun i hi => ?_) (by rw [ht, List.append_nil])
    unfold connectReply at hi ⊢
    rw [← he]
    exact hi

theorem asked_zero :
    Asked r 0 b ↔ (∀ id, b.connectReply id ≠ some r) ∧ b.trace.countP (IoEvent.answers r) = 0 := by
  constructor
  · rintro ⟨w, hw, hle⟩
    cases w with
    | none => exact ⟨fun id hid => (by cases hw id hid), by simpa using hle⟩
    | some id => simp at hle
  · rintro ⟨hno, hzero⟩
    exact ⟨none, fun id hid => absurd hid (hno id), by simp [hzero]⟩

theorem Asked.answered (h : Asked r 0 b) (a : Reply) : Asked r 1 (b.answer r a) := by
  obtain ⟨hno, hzero⟩ := asked_zero.mp h
  refine ⟨none, fun id hid => absurd hid (hno id), ?_⟩
  simp [hzero, IoEvent.answers]

theorem awaitConnect_asked (id : SocketId) (h : Asked r 0 b) : Asked r 1 (b.awaitConnect id r) := by
  obtain ⟨hno, hzero⟩ := asked_zero.mp h
  unfold awaitConnect
  cases he : b.entry id with
  | none =>
    have hlet : [IoEvent.unanswered r].countP (IoEvent.answers r) = 0 := by simp [IoEvent.answers]
    exact (h.mono (Nat.zero_le 1)).keep hlet (fun _ hw => hw) rfl
  | some e =>
    have hgive (c : Bridge) (hent : c.entry = b.entry)
        (hcount : c.trace.countP (IoEvent.answers r) = 0) :
        Asked r 1 ((c.modify id fun s => { s with connectReply := some r }).record id .connecting) := by
      have hce : c.entry id = some e := by rw [hent, he]
      rw [modify_some hce, record_some (e := { e with connectReply := some r })
        (by rw [entry_setEntry, if_pos rfl])]
      refine ⟨some id, fun i hi => ?_, ?_⟩
      · by_contra hne
        have hi' : i ≠ id := fun h => hne (h ▸ rfl)
        refine hno i ?_
        unfold connectReply at hi ⊢
        rw [entry_emit, entry_setEntry, if_neg hi', entry_setEntry, if_neg hi', hent] at hi
        exact hi
      · simp [hcount, IoEvent.answers]
    dsimp only
    cases e.connectReply with
    | none => exact hgive b rfl hzero
    | some earlier => exact hgive (b.emit (.unanswered earlier)) rfl (by simp [hzero, IoEvent.answers])

/-- A reply that nobody has is answered at once, or waits on the entry it is given to. -/
theorem connect_asked (lib : Libsrt) (id : SocketId) (addr : SocketAddr) (h : Asked r 0 b) :
    Asked r 1 (b.connect lib id addr r) := by
  have hemit {c : Bridge} (hc : Asked r 0 c) (x : IoEvent) (hx : x.answers r = false) :
      Asked r 0 (c.emit x) :=
    hc.keep (by simp [hx]) (fun _ hw => hw) rfl
  have hrecord {c : Bridge} (hc : Asked r 0 c) (q : SocketStatus) : Asked r 0 (c.record id q) := by
    cases he : c.entry id with
    | none =>
      rw [record_none he]
      exact hc
    | some e =>
      rw [record_some he]
      refine hemit (hc.keep (List.countP_nil (p := IoEvent.answers r)) (fun i hi => ?_) ?_) _ rfl
      · unfold connectReply at hi ⊢
        rw [entry_setEntry] at hi
        split_ifs at hi with hid
        · rw [hid, he]
          simpa using hi
        · exact hi
      · rw [trace_setEntry, List.append_nil]
  have hfirst := hemit h (.connecting id) rfl
  have hsub := hemit hfirst (.subscribed id) rfl
  unfold connect
  dsimp only
  split_ifs
  · exact hfirst.answered _
  · split
    · exact (hrecord hsub _).answered _
    · exact awaitConnect_asked id hsub
    · exact awaitConnect_asked id hsub
    · exact awaitConnect_asked id hsub
    · exact hfirst.answered _

end Asked

def Action.reply : Action → Option ReplyId
  | .io (.command cmd) => cmd.reply
  | _ => none

section Runs

variable {lib : Libsrt} {b : Bridge} {actions : List Action} {r : ReplyId}

theorem asked_run {n : ℕ} (h : Asked r n b) (hr : r ∉ actions.filterMap Action.reply) :
    Asked r n (b.run lib actions) := by
  have hall : Along (act lib) (fun _ a => a.reply ≠ some r) b actions :=
    along_of_forall fun a ha hrep => hr (List.mem_filterMap.mpr ⟨a, ha, hrep⟩)
  have hsteps : StepsMeet lib (fun _ s => ∀ cmd, s = .command cmd → cmd.reply ≠ some r) b actions := by
    refine hall.mono fun b a ha => ?_
    cases a with
    | io s =>
      intro _ cmd hs
      rw [hs] at ha
      exact ha
    | tokio | elapse => trivial
  exact asked_keeps.run hsteps h

/-- When every command brings a reply of its own, a connect is answered at most once. -/
theorem answered_once {id : SocketId} {addr : SocketAddr} (lib : Libsrt)
    (hnodup : (actions.filterMap Action.reply).Nodup)
    (hc : .io (.command (.connect id addr r)) ∈ actions) :
    (start.run lib actions).trace.countP (IoEvent.answers r) ≤ 1 := by
  obtain ⟨pre, post, rfl⟩ := List.append_of_mem hc
  rw [List.filterMap_append, List.filterMap_cons, List.nodup_append] at hnodup
  obtain ⟨-, hpost, hdisj⟩ := hnodup
  have hpre : r ∉ pre.filterMap Action.reply := fun hmem => hdisj r hmem r (List.mem_cons_self ..) rfl
  have hstart : Asked r 0 start := asked_zero.mpr ⟨fun _ h => (by cases h), rfl⟩
  have hbefore : Asked r 0 (start.run lib pre) := asked_run hstart hpre
  have hstep : Asked r 1 ((start.run lib pre).act lib (.io (.command (.connect id addr r)))) := by
    show Asked r 1 (if (start.run lib pre).running = true then _ else _)
    split_ifs
    · exact connect_asked lib id addr hbefore
    · exact hbefore.mono (Nat.zero_le 1)
  have hend : Asked r 1 (start.run lib (pre ++ .io (.command (.connect id addr r)) :: post)) := by
    have hrun : start.run lib (pre ++ .io (.command (.connect id addr r)) :: post) =
        ((start.run lib pre).act lib (.io (.command (.connect id addr r)))).run lib post := by
      simp [run]
    rw [hrun]
    exact asked_run hstep (List.nodup_cons.mp hpost).1
  obtain ⟨w, -, hle⟩ := hend
  omega

variable (lib) in
/-- In every run of iterations that leaves no connect behind: whenever an iteration has ended,
a connect waits only on an entry that is connecting; every step answers the connects it ends,
with success exactly when it records the entry as connected; and a connect is answered at
most once. -/
theorem connects_settled (iterations : List (List Action))
    (h : Iterates lib start (fun reaps b s => leavesConnect lib reaps b s = false) iterations) :
    let b := start.run lib iterations.flatten
    (b.running = true →
        ∀ id e, b.entry id = some e → e.connectReply ≠ none → e.lastStatus = .connecting) ∧
      (∀ pre s post, iterations.flatten = pre ++ .io s :: post → (start.run lib pre).running = true →
        Settles lib (start.run lib pre) s) ∧
      ((iterations.flatten.filterMap Action.reply).Nodup → ∀ id addr r,
        .io (.command (.connect id addr r)) ∈ iterations.flatten →
          b.trace.countP (IoEvent.answers r) ≤ 1) := by
  intro b
  refine ⟨fun hr id e he hw => ?_, fun pre s post hsplit hr => ?_, fun hnodup id addr r hc =>
    answered_once lib hnodup hc⟩
  · have hend : b.running = true → b.ConnectsAwaited false := by
      refine h.invariant (P := fun b => b.running = true → b.ConnectsAwaited false)
        (Q := fun reaps b => b.running = true → b.ConnectsAwaited reaps) ?_ ?_ ?_ ?_ ?_
      · exact fun b reaps hP hr id e he hw => .inl ((hP hr id e he hw).resolve_right (by simp))
      · intro reaps b a hm hQ hr
        have hb := running_of_act hr
        cases a with
        | io s =>
          intro id e he
          rw [entry_act hb] at he
          exact ioStep_awaited (hQ hb) (hm hb) id e he
        | tokio t => cases t <;> exact hQ hb
        | elapse d => exact hQ hb
      · exact fun b hQ => hQ
      · intro b hQ hr id e he
        have hb := running_of_act hr
        rw [entry_act hb] at he
        exact cleanup_awaited (hQ hb) id e he
      · exact fun _ id e he => (by cases he)
    exact (hend hr id e he hw).resolve_right (by simp)
  · obtain ⟨reaps, hok⟩ := along_iff.mp h.stepsMeet pre (.io s) post hsplit hr
    exact ioStep_settles hok

end Runs

/-- A socket is created, given its channels, and told to connect; then epoll reports on it. -/
def connectIterations (flags : EpollFlags) : List (List Action) :=
  [[.io (.command (.createSocket {} 0))], [.io (.command (.registerSocket 7 1 2 3))],
    [.io (.command (.connect 7 (.v4 0x7f000001 9000) 1))], [.io (.event 7 flags)]]

/-- The actions are iterations of the loop, as long as the socket is still connecting after the third. -/
theorem connectIterations_iterates {lib : Libsrt} {ok : Bool → Bridge → IoStep → Prop}
    {flags : EpollFlags} (h : StepsMeet lib (ok false) start (connectIterations flags).flatten)
    (h₁ : ((start.run lib ((connectIterations flags).take 1).flatten)).sockets.keys.isEmpty = true)
    (h₂ : ((start.run lib ((connectIterations flags).take 2).flatten)).sockets.keys.isEmpty = false)
    (h₃ : ((start.run lib ((connectIterations flags).take 3).flatten)).sockets.keys.isEmpty = false)
    (hi : (start.run lib ((connectIterations flags).take 3).flatten).idle = false) :
    Iterates lib start ok (connectIterations flags) := by
  obtain ⟨hm₁, hm₂, hm₃, hm₄, -⟩ := h
  have hnone (kind : IoStep → Bool) : Only kind [] := by simp [Only]
  have hactive {b : Bridge} (commands events : List Action) (hb : b.sockets.keys.isEmpty = false)
      (hc : Only IoStep.isCommand commands) (hi : (b.run lib commands).idle = false)
      (he : Only IoStep.isEvent events) : Iteration lib b false (commands ++ events) := by
    have hact := Active.phases hb hc hi he (hnone _) (hnone _) (hnone _)
    simp only [List.append_nil] at hact
    exact .active hact
  refine ⟨⟨false, ?_, hm₁, trivial⟩, ⟨false, ?_, hm₂, trivial⟩, ⟨false, ?_, hm₃, trivial⟩,
    ⟨false, ?_, hm₄, trivial⟩, trivial⟩
  · exact (.parked rfl (hnone _) : Iteration lib start false ([] ++ [_]))
  · exact (.parked h₁ (hnone _) : Iteration lib _ false ([] ++ [_]))
  · exact hactive [_] [] h₂ (by simp [Only, Action.ioStep, IoStep.isCommand]) hi (hnone _)
  · exact hactive [] [_] h₃ (hnone _) hi (by simp [Only, Action.ioStep, IoStep.isEvent])

/-- The socket connects. -/
theorem connects_settled_connected :
    let lib := Libsrt.reading fun k => if k < 2 then .opened else if k = 2 then .connecting else .connected
    let b := start.run lib (connectIterations ⟨false, true, false, true⟩).flatten
    ∀ id e, b.entry id = some e → e.connectReply ≠ none → e.lastStatus = .connecting := by
  intro lib b
  exact (connects_settled lib _ (connectIterations_iterates (by decide) (by decide) (by decide)
    (by decide) (by decide))).1 (by decide)

/-- The handshake fails, and epoll reports nothing but the error: the entry is recorded as
broken, and the connect still waits. -/
theorem connect_left_waiting :
    let lib := Libsrt.reading fun k => if k < 2 then .opened else if k = 2 then .connecting else .broken
    let b := start.run lib (connectIterations ⟨false, false, true, false⟩).flatten
    Iterates lib start (fun _ _ _ => True) (connectIterations ⟨false, false, true, false⟩) ∧
      (b.entry 7).map (fun e => (e.connectReply, e.lastStatus)) = some (some 1, .broken) ∧
        b.trace.countP (IoEvent.answers 1) = 0 := by
  intro lib b
  have hall : StepsMeet lib (fun _ _ => True) start
      (connectIterations ⟨false, false, true, false⟩).flatten :=
    stepsMeet_of_forall (fun _ _ => trivial) _ _
  exact ⟨connectIterations_iterates hall (by decide) (by decide) (by decide) (by decide), by decide,
    by decide⟩

end Bridge

end SrtBridge
