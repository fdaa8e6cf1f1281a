import SrtBridge.Bridge.Epoll

/-! Shutting down. Only a shutdown command ends the thread, and it leaves an empty map. -/

namespace SrtBridge

open General

namespace Bridge

/-- What hardly any step changes: the clock, the step number, and whether the thread runs. -/
def ambient (b : Bridge) : Instant × ℕ × Bool := (b.clock, b.step, b.running)

section Ambient

variable (lib : Libsrt) (b : Bridge) (id : SocketId)

@[simp] theorem ambient_emit (x : IoEvent) : (b.emit x).ambient = b.ambient := rfl

@[simp] theorem ambient_answer (reply : ReplyId) (r : Reply) : (b.answer reply r).ambient = b.ambient := rfl

@[simp] theorem ambient_setOptions (calls : List OptCall) :
    (b.setOptions lib id calls).ambient = b.ambient := rfl

@[simp] theorem ambient_setEntry (s : SocketState) : (b.setEntry id s).ambient = b.ambient := rfl

@[simp] theorem ambient_enter (s : SocketState) : (b.enter id s).ambient = b.ambient := rfl

@[simp] theorem ambient_modify (f : SocketState → SocketState) : (b.modify id f).ambient = b.ambient := by
  unfold modify; split <;> rfl

@[simp] theorem ambient_record (status : SocketStatus) : (b.record id status).ambient = b.ambient := by
  unfold record; split <;> rfl

@[simp] theorem ambient_register (r d t : ChannelId) : (b.register id r d t).ambient = b.ambient := by
  unfold register; split <;> rfl

@[simp] theorem ambient_release : (b.release id).ambient = b.ambient := by
  unfold release; split <;> rfl

@[simp] theorem ambient_enterIfAbsent (s : SocketState) :
    (b.enterIfAbsent id s).ambient = b.ambient := by
  unfold enterIfAbsent; split <;> rfl

@[simp] theorem ambient_closeAndRelease : (b.closeAndRelease id).ambient = b.ambient := by
  unfold closeAndRelease
  split_ifs <;> simp

@[simp] theorem ambient_closeAndFail (err : SrtError) : (b.closeAndFail id err).ambient = b.ambient := by
  unfold closeAndFail; split <;> simp

@[simp] theorem ambient_closeAndDrop : (b.closeAndDrop id).ambient = b.ambient := by
  unfold closeAndDrop; split <;> simp

@[simp] theorem ambient_putGroup (r : GroupRun) : (b.putGroup id r).ambient = b.ambient := rfl

theorem ambient_listen (backlog : ℤ) (reply : ReplyId) :
    (b.listen lib id backlog reply).ambient = b.ambient := by
  have harm : (b.registerListenCallback lib id).2.ambient = b.ambient := by
    unfold registerListenCallback
    split
    · rfl
    · split_ifs <;> rfl
  unfold listen
  split
  · rename_i err c hc
    rw [hc] at harm
    simpa using harm
  · rename_i c hc
    rw [hc] at harm
    dsimp only
    split_ifs <;> simpa using harm

theorem ambient_connect (addr : SocketAddr) (reply : ReplyId) :
    (b.connect lib id addr reply).ambient = b.ambient := by
  have hwait (c : Bridge) : (c.awaitConnect id reply).ambient = c.ambient := by
    unfold awaitConnect
    split
    · rfl
    · rename_i s _
      cases s.connectReply <;> simp
  unfold connect
  dsimp only
  split_ifs
  · rfl
  · split <;> simp [hwait]

theorem ambient_processCommand {cmd : IoCommand} (h : cmd ≠ .shutdown) :
    (b.processCommand lib cmd).ambient = b.ambient := by
  cases cmd with
  | createSocket | createGroup =>
    simp only [processCommand, createSocket, createGroup]
    split_ifs <;> simp
  | bind =>
    simp only [processCommand, bindSocket]
    split_ifs <;> rfl
  | listen => exact ambient_listen ..
  | connect => exact ambient_connect ..
  | registerSocket id r d t =>
    simp only [processCommand, registerSocket]
    split
    · split_ifs <;> simp
    · simp
  | registerListener => simp [processCommand, registerListener]
  | close => simp [processCommand]
  | connectGroup id eps reply =>
    simp only [processCommand, connectGroup]
    split
    · rfl
    · cases (b.emit (.subscribed id)).entry id <;> simp
  | addGroupMember =>
    simp only [processCommand, addGroupMember]
    split <;> simp
  | shutdown => exact absurd rfl h
  | getStats | getState | getPeerAddr | getLocalAddr | getStreamId | getGroupMemberStats => rfl

@[simp] theorem ambient_handleSend : (b.handleSend lib id).ambient = b.ambient := by
  obtain ⟨m, q, tr, h⟩ := handleSend_frame lib b id
  rw [h]
  rfl

@[simp] theorem ambient_handleRecv (j : ℕ) : (b.handleRecv lib j id).ambient = b.ambient := by
  have hall (packets : List ReceivedPacket) (c : Bridge) :
      (packets.foldl (deliver id) c).ambient = c.ambient := by
    induction packets generalizing c with
    | nil => rfl
    | cons p packets ih =>
      obtain ⟨q, h⟩ := deliver_frame c id p
      rw [List.foldl_cons, ih, h]
      rfl
  unfold handleRecv
  split_ifs
  · rfl
  · exact hall _ b

theorem ambient_processEvent (flags : EpollFlags) :
    (b.processEvent lib id flags).ambient = b.ambient := by
  have haccept : (b.handleAccept lib id).ambient = b.ambient := by
    unfold handleAccept
    dsimp only
    split_ifs
    · rfl
    · split <;> rfl
  have hconnect : (b.connectCompletion lib id).ambient = b.ambient := by
    unfold connectCompletion
    split
    · rfl
    · dsimp only
      split_ifs <;> simp
  have herr (c : Bridge) : (c.errorEvent lib id).ambient = c.ambient := by
    unfold errorEvent
    split
    · split_ifs <;> simp
    · rfl
  unfold processEvent
  dsimp only
  split_ifs <;> simp [haccept, hconnect, herr]

/-- A step leaves this alone, unless it is a shutdown or the check of a group. -/
theorem ambient_ioStep {s : IoStep} (h : s ≠ .command .shutdown) (hc : s.isCheck = false) :
    (b.ioStep lib s).ambient = b.ambient := by
  cases s with
  | command cmd => exact ambient_processCommand lib b fun hc => h (congrArg _ hc)
  | event id flags => exact ambient_processEvent ..
  | drain id =>
    simp only [ioStep, drain]
    split
    · split_ifs <;> simp
    · rfl
  | sweep id =>
    simp only [ioStep, sweep]
    split
    · split_ifs <;> simp
    · rfl
  | check id => cases hc
  | poll id =>
    have hfail (c : Bridge) (err : SrtError) : (c.failConnect id err).ambient = c.ambient := by
      unfold failConnect
      split <;> simp
    simp only [ioStep, poll]
    split
    · split_ifs <;> simp [hfail]
    · rfl
  | cleanup =>
    have hall (ids : List SocketId) (c : Bridge) :
        (ids.foldl (fun b id => b.closeAndFail id .connectionLost) c).ambient = c.ambient := by
      induction ids generalizing c with
      | nil => rfl
      | cons id ids ih => rw [List.foldl_cons, ih, ambient_closeAndFail]
    exact hall _ b

theorem checkGroup_step_le (r : GroupRun) : r.step ≤ (r.checkGroup lib id).step := by
  unfold GroupRun.checkGroup
  split_ifs
  · have hlen : (readLive lib r.step r.entry.watched).length = r.entry.watched.length := by
      simpa using congrArg List.length (readLive_keys lib r.step r.entry.watched)
    dsimp only
    rw [checkLoop_step hlen]
    omega
  · exact le_rfl

theorem ambient_check : (b.check lib id).clock = b.clock ∧ (b.check lib id).running = b.running ∧
    b.step ≤ (b.check lib id).step := by
  unfold check
  cases b.entry id with
  | none => exact ⟨rfl, rfl, le_rfl⟩
  | some s =>
    have hle : b.step ≤ ((b.groupRun s).checkGroup lib id).step := checkGroup_step_le lib id (b.groupRun s)
    dsimp only
    split_ifs
    · exact ⟨rfl, rfl, hle⟩
    · exact ⟨rfl, rfl, hle⟩
    · exact ⟨rfl, rfl, le_rfl⟩

theorem ambient_shutdown : b.shutdown.clock = b.clock ∧ b.step ≤ b.shutdown.step := by
  have hone (c : Bridge) (i : SocketId) : (shutdownOne c i).ambient = c.ambient := by
    unfold shutdownOne
    dsimp only
    split <;> simp
  have hall (ids : List SocketId) (c : Bridge) : (ids.foldl shutdownOne c).ambient = c.ambient := by
    induction ids generalizing c with
    | nil => rfl
    | cons i ids ih => rw [List.foldl_cons, ih, hone]
  obtain ⟨hclock, hrest⟩ := Prod.mk.inj (hall b.sockets.keys b)
  exact ⟨hclock, (Prod.mk.inj hrest).1.ge⟩

/-- A step takes no time and has a number of its own; only a shutdown ends the thread. -/
theorem ioStep_ambient (s : IoStep) : (b.ioStep lib s).clock = b.clock ∧
    (s ≠ .command .shutdown → (b.ioStep lib s).running = b.running) ∧
      b.step ≤ (b.ioStep lib s).step := by
  by_cases hs : s = .command .shutdown
  · subst hs
    exact ⟨(ambient_shutdown b).1, fun h => absurd rfl h, (ambient_shutdown b).2⟩
  · cases hc : s.isCheck with
    | true =>
      obtain ⟨i, rfl⟩ : ∃ i, s = .check i := by
        cases s <;> simp_all [IoStep.isCheck]
      obtain ⟨hclock, hrun, hstep⟩ := ambient_check lib b i
      exact ⟨hclock, fun _ => hrun, hstep⟩
    | false =>
      obtain ⟨hclock, hrest⟩ := Prod.mk.inj (ambient_ioStep lib b hs hc)
      obtain ⟨hstep, hrun⟩ := Prod.mk.inj hrest
      exact ⟨hclock, fun _ => hrun, hstep.ge⟩

theorem act_step_le (a : Action) : b.step ≤ (b.act lib a).step := by
  cases a with
  | io s =>
    show b.step ≤ (if b.running = true then _ else b).step
    split_ifs
    · exact ((ioStep_ambient lib b s).2.2).trans (Nat.le_succ _)
    · exact le_rfl
  | tokio t => cases t <;> exact le_rfl
  | elapse d => exact le_rfl

theorem run_step_le (actions : List Action) : b.step ≤ (b.run lib actions).step := by
  induction actions generalizing b with
  | nil => exact le_rfl
  | cons a actions ih => exact (act_step_le lib b a).trans (ih _)

theorem act_clock_le (a : Action) : b.clock ≤ (b.act lib a).clock := by
  cases a with
  | io s =>
    show b.clock ≤ (if b.running = true then _ else b).clock
    split_ifs
    · exact (ioStep_ambient lib b s).1.ge
    · exact le_rfl
  | tokio t => cases t <;> exact le_rfl
  | elapse d => exact Nat.le_add_right ..

theorem run_clock_le (actions : List Action) : b.clock ≤ (b.run lib actions).clock := by
  induction actions generalizing b with
  | nil => exact le_rfl
  | cons a actions ih => exact (act_clock_le lib b a).trans (ih _)

end Ambient

section Halted

variable {lib : Libsrt} {b : Bridge}

/-- A thread that is no longer running has emptied the map. -/
theorem act_halted (a : Action) (h : b.running = false → ∀ i, b.entry i = none)
    (hr : (b.act lib a).running = false) (i : SocketId) : (b.act lib a).entry i = none := by
  cases a with
  | io s =>
    cases hb : b.running with
    | false =>
      have hsame : b.act lib (.io s) = b := if_neg (by simp [hb])
      rw [hsame]
      exact h hb i
    | true =>
      by_cases hs : s = .command .shutdown
      · subst hs
        rw [entry_act hb]
        exact entry_shutdown b i
      · have hact : (b.act lib (.io s)).running = (b.ioStep lib s).running := by
          simp [act, hb]
        rw [hact, (ioStep_ambient lib b s).2.1 hs, hb] at hr
        cases hr
  | tokio t =>
    have hrun : b.running = false := by
      cases t <;> exact hr
    have hent : (b.act lib (.tokio t)).entry i = b.entry i := by
      cases t <;> rfl
    rw [hent]
    exact h hrun i
  | elapse d => exact h hr i

theorem run_halted (h : b.running = false → ∀ i, b.entry i = none) (actions : List Action)
    (hr : (b.run lib actions).running = false) (i : SocketId) :
    (b.run lib actions).entry i = none := by
  induction actions generalizing b with
  | nil => exact h hr i
  | cons a actions ih => exact ih (act_halted a h) hr

end Halted

end Bridge

end SrtBridge
