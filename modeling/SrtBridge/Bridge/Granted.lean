import SrtBridge.Bridge.Errors

/-! Where the success of a reply comes from. A oneshot is told `Ok` exactly when libsrt has
borne its command out: in the command's own step, or, for a `Connect` that waits, in the step
of the event that finds the socket connected. -/

namespace SrtBridge

open General

def Reply.isOk : Reply → Bool
  | .socket (.ok _) | .done (.ok _) | .stats (.ok _) => true
  | _ => false

/-- Whom an event tells of a success, and how. -/
def IoEvent.ok : IoEvent → Option (ReplyId × Reply)
  | .answered reply a => if a.isOk then some (reply, a) else none
  | _ => none

namespace Bridge

def oks (b : Bridge) : List (ReplyId × Reply) := b.trace.filterMap IoEvent.ok

/-- Step `s` bears out a success: libsrt has said, in this step, that what the oneshot `r` waits
for has come about. -/
inductive Grants (lib : Libsrt) (b : Bridge) : IoStep → ReplyId → Reply → Prop
  | createSocket {config r} (h : 0 ≤ lib.createSocket b.step) :
      Grants lib b (.command (.createSocket config r)) r (.socket (.ok (lib.createSocket b.step)))
  | bind {id addr r} (h : 0 ≤ lib.bind b.step id addr) :
      Grants lib b (.command (.bind id addr r)) r (.done (.ok ()))
  | listen {id backlog r}
      (harm : ∀ slot, b.accessSlot id = some slot → 0 ≤ lib.listenCallback b.step id slot)
      (h : 0 ≤ lib.listen b.step id backlog) :
      Grants lib b (.command (.listen id backlog r)) r (.done (.ok ()))
  | connect {id addr r}
      (ha : 0 ≤ lib.connect b.step id addr ∨ lib.lastSrtError b.step 0 = .asyncFail)
      (hq : lib.getsockstate b.step 0 id = .connected) :
      Grants lib b (.command (.connect id addr r)) r (.done (.ok ()))
  | connected {id flags r} (hw : b.connectReply id = some r) (hf : flags.connect = true)
      (hi : ¬((b.entry id).any SocketState.isListener = true ∧ flags.inp = true))
      (hq : lib.getsockstate b.step 0 id = .connected) :
      Grants lib b (.event id flags) r (.done (.ok ()))
  | stats {id r} (h : 0 ≤ lib.bistats b.step id) :
      Grants lib b (.command (.getStats id r)) r (.stats (.ok ()))
  | createGroup {mode config r} (h : 0 ≤ lib.createGroup b.step mode) :
      Grants lib b (.command (.createGroup mode config r)) r
        (.socket (.ok (lib.createGroup b.step mode)))
  | connectGroup {id eps r} (h : (SrtBridge.connectGroup lib b.step 0 id eps).refused = none) :
      Grants lib b (.command (.connectGroup id eps r)) r (.done (.ok ()))
  /-- The group has a member for the endpoint already. -/
  | present {id ep r s m} (hs : b.entry id = some s) (hg : s.isGroup = true)
      (ht : isTerminalStatus s.lastStatus = false) (hc : lib.getsockstate b.step 0 id = .connected)
      (hm : memberInFlight lib b.step 1 (readGroupRows lib b.step 0 id) ep.token [] = some m) :
      Grants lib b (.command (.addGroupMember id ep r)) r (.done (.ok ()))
  | added {id ep r m} (hadd : AddConnects lib b id ep)
      (hm : (SrtBridge.connectGroup lib b.step 1 id [ep]).single = .ok m) :
      Grants lib b (.command (.addGroupMember id ep r)) r (.done (.ok ()))

section Oks

variable (b : Bridge) (id : SocketId)

@[simp] theorem oks_emits (es : List IoEvent) :
    (b.emits es).oks = b.oks ++ es.filterMap IoEvent.ok :=
  List.filterMap_append

@[simp] theorem oks_emit (x : IoEvent) : (b.emit x).oks = b.oks ++ x.ok.toList := by
  show (b.emits [x]).oks = _
  rw [oks_emits]
  cases h : x.ok <;> simp [h]

@[simp] theorem oks_answer (reply : ReplyId) (a : Reply) :
    (b.answer reply a).oks = b.oks ++ if a.isOk then [(reply, a)] else [] := by
  unfold answer
  rw [oks_emit]
  simp only [IoEvent.ok]
  split_ifs <;> rfl

theorem oks_of_trace {b b' : Bridge} {es : List IoEvent} (ht : b'.trace = b.trace ++ es)
    (hes : ∀ x ∈ es, x.ok = none) : b'.oks = b.oks := by
  unfold oks
  rw [ht, List.filterMap_append, List.filterMap_eq_nil_iff.mpr hes, List.append_nil]

@[simp] theorem oks_enter (e : SocketState) : (b.enter id e).oks = b.oks :=
  oks_of_trace (trace_enter ..) (List.forall_mem_singleton.mpr rfl)

@[simp] theorem oks_modify (f : SocketState → SocketState) : (b.modify id f).oks = b.oks := by
  unfold modify
  split <;> rfl

@[simp] theorem oks_record (q : SocketStatus) : (b.record id q).oks = b.oks := by
  cases he : b.entry id with
  | none => rw [record_none he]
  | some e =>
    rw [record_some he]
    exact oks_of_trace (b := b) rfl (List.forall_mem_singleton.mpr rfl)

@[simp] theorem oks_setOptions (lib : Libsrt) (calls : List OptCall) :
    (b.setOptions lib id calls).oks = b.oks :=
  oks_of_trace (b := b) rfl (List.forall_mem_map.mpr fun _ _ => rfl)

@[simp] theorem oks_putGroup (g : GroupRun) : (b.putGroup id g).oks = b.oks :=
  oks_of_trace (b := b) rfl (List.forall_mem_map.mpr fun _ _ => rfl)

theorem ok_plain {x : IoEvent} (h : x.isPlain = true) : x.ok = none := by
  cases x with
  | answered => cases h
  | _ => rfl

@[simp] theorem oks_closeAndDrop : (b.closeAndDrop id).oks = b.oks := by
  cases he : b.entry id with
  | none =>
    unfold Bridge.closeAndDrop closeAndRelease
    rw [connectReply_none he]
    dsimp only
    split_ifs
    · rw [release_none (by simpa using he)]
      exact oks_of_trace (b := b) rfl (List.forall_mem_singleton.mpr rfl)
    · rw [release_none (by simpa using he)]
      simp [IoEvent.ok]
  | some e =>
    refine oks_of_trace (trace_closeAndDrop he) fun x hx => ?_
    simp only [List.mem_append, List.mem_cons] at hx
    obtain hx | rfl | rfl | hx := hx
    · exact ok_plain (unsubscribe_plain b id x hx)
    · rfl
    · rfl
    · obtain ⟨reply, -, rfl⟩ := Option.map_eq_some_iff.mp (Option.mem_toList.mp hx)
      rfl

@[simp] theorem oks_awaitConnect (reply : ReplyId) : (b.awaitConnect id reply).oks = b.oks := by
  unfold awaitConnect
  split
  · simp [IoEvent.ok]
  · dsimp only
    split <;> simp [IoEvent.ok]

@[simp] theorem oks_handleSend (lib : Libsrt) : (b.handleSend lib id).oks = b.oks := by
  obtain ⟨es, ht, hes⟩ := trace_handleSend lib b id
  refine oks_of_trace ht fun x hx => ?_
  obtain ⟨data, ok, rfl⟩ := hes x hx
  rfl

@[simp] theorem oks_handleRecv (lib : Libsrt) (j : ℕ) : (b.handleRecv lib j id).oks = b.oks := by
  have hall (packets : List ReceivedPacket) (c : Bridge) :
      (packets.foldl (deliver id) c).oks = c.oks := by
    induction packets generalizing c with
    | nil => rfl
    | cons p packets ih =>
      rw [List.foldl_cons, ih]
      exact oks_of_trace (trace_deliver p) (List.forall_mem_singleton.mpr rfl)
  unfold handleRecv
  split_ifs
  · rfl
  · exact hall _ b

@[simp] theorem oks_handleAccept (lib : Libsrt) : (b.handleAccept lib id).oks = b.oks := by
  unfold handleAccept
  dsimp only
  split_ifs
  · rfl
  · split
    · simp [IoEvent.ok]
    · rw [oks_emit, oks_setOptions]
      exact (List.append_nil _).trans (oks_of_trace (b := b) rfl (List.forall_mem_singleton.mpr rfl))

@[simp] theorem oks_errorEvent (lib : Libsrt) : (b.errorEvent lib id).oks = b.oks := by
  unfold errorEvent
  split
  · split_ifs
    · rfl
    · exact oks_record ..
  · rfl

end Oks

/-- From `b` to `b'` the successes told are those that step `s` bears out. -/
def Gives (lib : Libsrt) (s : IoStep) (b b' : Bridge) : Prop :=
  ∃ gs, b'.oks = b.oks ++ gs ∧ ∀ r a, (r, a) ∈ gs ↔ Grants lib b s r a

section Gives

variable {lib : Libsrt} {s : IoStep} {b b' : Bridge}

theorem Grants.unique {r r' : ReplyId} {a a' : Reply} (h : Grants lib b s r a)
    (h' : Grants lib b s r' a') : r' = r ∧ a' = a := by
  cases h with
  | connected hw =>
    cases h' with
    | connected hw' => exact ⟨Option.some.inj (hw'.symm.trans hw), rfl⟩
  | present | added => cases h' <;> exact ⟨rfl, rfl⟩
  | _ =>
    cases h'
    exact ⟨rfl, rfl⟩

theorem Gives.nothing (h : b'.oks = b.oks) (hno : ∀ r a, ¬Grants lib b s r a) : Gives lib s b b' :=
  ⟨[], h.trans (List.append_nil _).symm, fun r a => iff_of_false List.not_mem_nil (hno r a)⟩

theorem Gives.one {r : ReplyId} {a : Reply} (hg : Grants lib b s r a)
    (h : b'.oks = b.oks ++ [(r, a)]) : Gives lib s b b' := by
  refine ⟨_, h, fun r' a' => ?_⟩
  rw [List.mem_singleton, Prod.mk.injEq]
  constructor
  · rintro ⟨rfl, rfl⟩
    exact hg
  · exact hg.unique

theorem Gives.mem_iff (h : Gives lib s b b') (r : ReplyId) (a : Reply) :
    (r, a) ∈ b'.oks ↔ (r, a) ∈ b.oks ∨ Grants lib b s r a := by
  obtain ⟨gs, hgs, hp⟩ := h
  rw [hgs, List.mem_append, hp]

end Gives

section Commands

variable {lib : Libsrt} {b : Bridge} {id : SocketId} {reply : ReplyId}

theorem createSocket_gives (config : SrtConfig) :
    Gives lib (.command (.createSocket config reply)) b
      (b.createSocket lib config reply) := by
  unfold createSocket
  dsimp only
  split_ifs with h
  · refine .nothing (by simp [Reply.isOk]) fun r a hg => ?_
    cases hg with
    | createSocket hge => exact absurd h (not_lt.mpr hge)
  · exact .one (.createSocket (not_lt.mp h)) (by simp [Reply.isOk, IoEvent.ok])

theorem bindSocket_gives (addr : SocketAddr) :
    Gives lib (.command (.bind id addr reply)) b (b.bindSocket lib id addr reply) := by
  unfold bindSocket
  split_ifs with h
  · refine .nothing (by simp [Reply.isOk, IoEvent.ok]) fun r a hg => ?_
    cases hg with
    | bind hge => exact absurd h (not_lt.mpr hge)
  · exact .one (.bind (not_lt.mp h)) (by simp [Reply.isOk, IoEvent.ok])

theorem listen_gives (backlog : ℤ) :
    Gives lib (.command (.listen id backlog reply)) b (b.listen lib id backlog reply) := by
  have hon (c : Bridge) (hoks : c.oks = b.oks) (hstep : c.step = b.step)
      (harm : ∀ slot, b.accessSlot id = some slot → 0 ≤ lib.listenCallback b.step id slot) :
      Gives lib (.command (.listen id backlog reply)) b (c.listenOn lib id backlog reply) := by
    unfold listenOn
    rw [hstep]
    split_ifs with h
    · refine .nothing (by simp [Reply.isOk, IoEvent.ok, hoks]) fun r a hg => ?_
      cases hg with
      | listen _ hge => exact absurd h (not_lt.mpr hge)
    · exact .one (.listen harm (not_lt.mp h)) (by simp [Reply.isOk, IoEvent.ok, hoks])
  unfold listen registerListenCallback
  cases hslot : b.accessSlot id with
  | none => exact hon b rfl rfl fun slot h => by rw [hslot] at h; cases h
  | some slot =>
    dsimp only
    by_cases hlt : lib.listenCallback b.step id slot < 0
    · rw [if_pos hlt]
      refine .nothing (by simp [Reply.isOk, IoEvent.ok]) fun r a hg => ?_
      cases hg with
      | listen harm => exact absurd hlt (not_lt.mpr (harm slot hslot))
    · rw [if_neg hlt]
      refine hon _ (by simp [IoEvent.ok]) rfl fun slot' h => ?_
      obtain rfl := Option.some.inj (hslot.symm.trans h)
      exact not_lt.mp hlt

theorem connect_gives (addr : SocketAddr) :
    Gives lib (.command (.connect id addr reply)) b (b.connect lib id addr reply) := by
  unfold connect
  dsimp only
  split_ifs with ha
  · refine .nothing (by simp [Reply.isOk, IoEvent.ok]) fun r a hg => ?_
    cases hg with
    | connect hgo =>
      obtain hge | hasync := hgo
      · exact absurd ha.1 (not_lt.mpr hge)
      · exact ha.2 hasync
  · by_cases hq : lib.getsockstate b.step 0 id = .connected
    · rw [hq]
      rw [not_and_or, not_lt, not_not] at ha
      exact .one (.connect ha hq) (by simp [Reply.isOk, IoEvent.ok])
    · refine .nothing ?_ fun r a hg => ?_
      · cases hs : lib.getsockstate b.step 0 id with
        | connected => exact absurd hs hq
        | _ => simp [Reply.isOk, IoEvent.ok]
      · cases hg with
        | connect _ hcon => exact hq hcon

theorem getStats_gives :
    Gives lib (.command (.getStats id reply)) b
      (b.processCommand lib (.getStats id reply)) := by
  show Gives lib _ b (b.answer reply (.stats _))
  split_ifs with h
  · refine .nothing (by simp [Reply.isOk]) fun r a hg => ?_
    cases hg with
    | stats hge => exact absurd h (not_lt.mpr hge)
  · exact .one (.stats (not_lt.mp h)) (by simp [Reply.isOk])

theorem createGroup_gives (mode : GroupType) (config : SrtConfig) :
    Gives lib (.command (.createGroup mode config reply)) b
      (b.createGroup lib mode config reply) := by
  unfold createGroup
  dsimp only
  split_ifs with h
  · refine .nothing (by simp [Reply.isOk]) fun r a hg => ?_
    cases hg with
    | createGroup hge => exact absurd h (not_lt.mpr hge)
  · exact .one (.createGroup (not_lt.mp h)) (by simp [Reply.isOk, IoEvent.ok])

theorem connectGroup_gives (eps : List GroupEndpoint) :
    Gives lib (.command (.connectGroup id eps reply)) b
      (b.connectGroup lib id eps reply) := by
  unfold Bridge.connectGroup
  cases hr : (SrtBridge.connectGroup lib b.step 0 id eps).refused with
  | none =>
    dsimp only
    refine .one (.connectGroup hr) ?_
    split <;> simp [Reply.isOk, IoEvent.ok]
  | some err =>
    refine .nothing (by simp [Reply.isOk]) fun r a hg => ?_
    cases hg with
    | connectGroup hnone =>
      rw [hr] at hnone
      cases hnone

theorem addGroupMember_ok_iff (reply : ReplyId) {s : SocketState} {ep : GroupEndpoint}
    (hs : b.entry id = some s) :
    ((b.groupRun s).addGroupMember lib id ep).1 = .ok () ↔
      Grants lib b (.command (.addGroupMember id ep reply)) reply (.done (.ok ())) := by
  unfold GroupRun.addGroupMember
  dsimp only
  split_ifs with hg hc
  · refine iff_of_false (by simp) ?_
    intro h
    cases h with
    | present hs' _ _ hcon => exact hc hcon
    | added hadd => exact hc hadd.2.1
  · cases hf : memberInFlight lib b.step 1 (readGroupRows lib b.step 0 id) ep.token [] with
    | some m =>
      simp only [groupRun, hf]
      exact iff_of_true trivial (.present hs hg.1 hg.2 (not_not.mp hc) hf)
    | none =>
      have hadd : AddConnects lib b id ep := ⟨⟨s, hs, hg⟩, not_not.mp hc, hf⟩
      simp only [groupRun, hf]
      cases hm : (SrtBridge.connectGroup lib b.step 1 id [ep]).single with
      | ok m => exact iff_of_true rfl (.added hadd hm)
      | error err =>
        refine iff_of_false (by simp) ?_
        intro h
        cases h with
        | present _ _ _ _ hm' =>
          rw [hf] at hm'
          cases hm'
        | added _ hm' =>
          rw [hm] at hm'
          cases hm'
  · refine iff_of_false (by simp) ?_
    intro h
    have hlive : s.isGroup = true ∧ isTerminalStatus s.lastStatus = false := by
      cases h with
      | present hs' hg' ht' =>
        obtain rfl := Option.some.inj (hs.symm.trans hs')
        exact ⟨hg', ht'⟩
      | added hadd =>
        obtain ⟨s', hs', hlive⟩ := hadd.1
        obtain rfl := Option.some.inj (hs.symm.trans hs')
        exact hlive
    exact hg hlive

theorem addGroupMember_gives (ep : GroupEndpoint) :
    Gives lib (.command (.addGroupMember id ep reply)) b (b.addGroupMember lib id ep reply) := by
  unfold Bridge.addGroupMember
  cases hs : b.entry id with
  | none =>
    refine .nothing (by simp [Reply.isOk]) fun r a hg => ?_
    cases hg with
    | present hs' =>
      rw [hs] at hs'
      cases hs'
    | added hadd =>
      obtain ⟨s, hs', -⟩ := hadd.1
      rw [hs] at hs'
      cases hs'
  | some s =>
    dsimp only
    cases hr : ((b.groupRun s).addGroupMember lib id ep).1 with
    | ok => exact .one ((addGroupMember_ok_iff reply hs).mp hr) (by simp [Reply.isOk])
    | error err =>
      refine .nothing (by simp [Reply.isOk]) fun r a h => ?_
      have hg : Grants lib b (.command (.addGroupMember id ep reply)) reply (.done (.ok ())) := by
        cases h with
        | present hs' hg ht hc hm => exact .present hs' hg ht hc hm
        | added hadd hm => exact .added hadd hm
      rw [(addGroupMember_ok_iff reply hs).mpr hg] at hr
      cases hr

end Commands

section Steps

variable {lib : Libsrt} {b c c' : Bridge} {s : IoStep} {i : SocketId}

/-- Nobody is told of a success by a change, the connect event apart. -/
theorem Change.no_ok {n : ℕ} {e₀ e new : Option SocketState} {es : List IoEvent}
    (h : Change lib s n e₀ i e new es) (hs : ∀ id flags, s ≠ .event id flags) :
    ∀ x ∈ es, x.ok = none := by
  intro x hx
  cases h with
  | enter | register | record | listen =>
    obtain rfl := List.mem_singleton.mp hx
    rfl
  | provide => cases hx
  | await =>
    obtain hx | hx := List.mem_append.mp hx
    · obtain ⟨r, -, rfl⟩ := Option.map_eq_some_iff.mp (Option.mem_toList.mp hx)
      rfl
    · obtain rfl := List.mem_singleton.mp hx
      rfl
  | complete hs' => exact absurd hs' (hs _ _)
  | fail =>
    obtain rfl := List.mem_singleton.mp hx
    rfl
  | watch hes =>
    obtain ⟨m, rfl⟩ := hes x hx
    rfl
  | close hpre hcl =>
    obtain hx | hx := List.mem_append.mp hx
    · exact ok_plain (hpre x hx)
    · obtain rfl | rfl | hx : x = _ ∨ x = _ ∨ x ∈ _ := by simpa using hx
      · rfl
      · rfl
      · cases hcl <;> obtain ⟨r, -, rfl⟩ := Option.map_eq_some_iff.mp (Option.mem_toList.mp hx) <;> rfl

/-- A step that comes with no oneshot and is no event tells of no success. -/
theorem quiet_gives (hs : ∀ cmd, s = .command cmd → cmd.reply = none)
    (he : ∀ id flags, s ≠ .event id flags) : Gives lib s b (b.ioStep lib s) := by
  have hmoved {c c' : Bridge} (h : Moved lib s b c c') : c'.oks = c.oks := by
    cases h with
    | note hes _ ht => exact oks_of_trace ht fun x hx => ok_plain (hes x hx)
    | answer hcmd hr =>
      rw [hs _ hcmd] at hr
      cases hr
    | arm | subscribe | listening | accepted => simp [IoEvent.ok]
    | change hch _ ht => exact oks_of_trace ht (hch.no_ok he)
    | take => exact oks_of_trace (trace_deliver _) (List.forall_mem_singleton.mpr rfl)
    | send => exact oks_handleSend ..
    | handOver => rfl
  refine .nothing ?_ ?_
  · exact (ioStep_moves lib b s).keep (P := fun c => c.oks = b.oks)
      (fun _ _ hm hc => (hmoved hm).trans hc) rfl
  · intro r a h
    cases h with
    | connected => exact he _ _ rfl
    | _ => cases hs _ rfl

theorem connectCompletion_oks : (b.connectCompletion lib i).oks = b.oks ++
    if lib.getsockstate b.step 0 i = .connected then
      ((b.connectReply i).map fun r => (r, Reply.done (.ok ()))).toList
    else [] := by
  unfold connectCompletion
  cases b.connectReply i with
  | none => simp
  | some reply =>
    dsimp only
    have hstep : (b.modify i fun e => { e with connectReply := none }).step = b.step := by
      unfold modify
      split <;> rfl
    rw [hstep]
    split_ifs <;> simp [Reply.isOk]

theorem processEvent_gives (flags : EpollFlags) :
    Gives lib (.event i flags) b (b.processEvent lib i flags) := by
  have hif (t : Bool) {c c' : Bridge} (h : c'.oks = c.oks) : (if t = true then c' else c).oks = c.oks := by
    split_ifs
    · exact h
    · rfl
  unfold processEvent
  by_cases hlis : (b.entry i).any SocketState.isListener = true ∧ flags.inp = true
  · rw [if_pos hlis]
    refine .nothing (oks_handleAccept ..) fun r a h => ?_
    cases h with
    | connected _ _ hi => exact hi hlis
  rw [if_neg hlis]
  dsimp only
  set b₁ := if flags.connect = true then b.connectCompletion lib i else b with hb₁
  -- what comes after the connect event tells of no success
  have hrest : (let b₂ := if flags.inp = true then b₁.handleRecv lib 1 i else b₁
      let b₃ := if flags.out = true then b₂.handleSend lib i else b₂
      if flags.err = true then b₃.errorEvent lib i else b₃).oks = b₁.oks :=
    (hif flags.err (oks_errorEvent ..)).trans
      ((hif flags.out (oks_handleSend ..)).trans (hif flags.inp (oks_handleRecv ..)))
  by_cases hgo : flags.connect = true ∧ lib.getsockstate b.step 0 i = .connected ∧
      (b.connectReply i).isSome = true
  · obtain ⟨hf, hq, hw⟩ := hgo
    obtain ⟨r, hr⟩ := Option.isSome_iff_exists.mp hw
    refine .one (.connected hr hf hlis hq) (hrest.trans ?_)
    rw [hb₁, if_pos hf, connectCompletion_oks, if_pos hq, hr]
    rfl
  · refine .nothing (hrest.trans ?_) ?_
    · rw [hb₁]
      split_ifs with hf
      · rw [connectCompletion_oks]
        split_ifs with hq
        · have hnone : b.connectReply i = none := by
            by_contra hne
            exact hgo ⟨hf, hq, Option.isSome_iff_ne_none.mpr hne⟩
          simp [hnone]
        · exact List.append_nil _
      · rfl
    · intro r a h
      cases h with
      | connected hw hf hi hq => exact hgo ⟨hf, hq, by rw [hw]; rfl⟩

/-- Every step tells of the successes it bears out, and of no others. -/
theorem ioStep_gives (lib : Libsrt) (b : Bridge) (s : IoStep) : Gives lib s b (b.ioStep lib s) := by
  have hanswer (reply : ReplyId) (a : Reply) (cmd : IoCommand) (ha : a.isOk = false)
      (hno : ∀ r a, ¬Grants lib b (.command cmd) r a) : Gives lib (.command cmd) b (b.answer reply a) :=
    .nothing (by simp [ha]) hno
  cases s with
  | event id flags => exact processEvent_gives flags
  | drain | sweep | check | poll | cleanup =>
    exact quiet_gives (fun _ h => by cases h) (fun _ _ h => by cases h)
  | command cmd =>
    cases cmd with
    | createSocket config reply => exact createSocket_gives config
    | bind id addr reply => exact bindSocket_gives addr
    | listen id backlog reply => exact listen_gives backlog
    | connect id addr reply => exact connect_gives addr
    | getStats id reply => exact getStats_gives
    | createGroup mode config reply => exact createGroup_gives mode config
    | connectGroup id eps reply => exact connectGroup_gives eps
    | addGroupMember id ep reply => exact addGroupMember_gives ep
    | getState | getPeerAddr | getLocalAddr | getStreamId | getGroupMemberStats =>
      exact hanswer _ _ _ rfl fun r a h => by cases h
    | registerSocket | registerListener | close | shutdown =>
      refine quiet_gives (fun cmd h => ?_) (fun _ _ h => by cases h)
      obtain rfl := IoStep.command.inj h
      rfl

end Steps

section Runs

variable {lib : Libsrt} {actions : List Action}

/-- A connect that waits on an entry was asked for, for that socket. -/
theorem waits_asked {id : SocketId} {r : ReplyId}
    (h : (start.run lib actions).connectReply id = some r) :
    ∃ addr, .io (.command (.connect id addr r)) ∈ actions := by
  have hkeeps : KeepsEntry lib (fun _ s => .io s ∈ actions) id fun e _ =>
      e.bind SocketState.connectReply = some r →
        ∃ addr, .io (.command (.connect id addr r)) ∈ actions := by
    refine ⟨fun _ _ h => h, fun _ h => h, ?_⟩
    intro b₀ s e new es tr hs _ _ hch hP hw
    cases hch with
    | enter he => cases he <;> cases hw
    | register | provide | watch => exact hP hw
    | record | listen =>
      refine hP ?_
      simpa using hw
    | await hs' =>
      rename_i addr reply _ _ _
      obtain rfl : reply = r := by simpa using hw
      exact ⟨addr, hs' ▸ hs⟩
    | complete | fail => simp at hw
    | close => cases hw
  refine hkeeps.run ?_ (fun hw => by cases hw) h
  refine along_iff.mpr fun pre a post hsplit => ?_
  cases a with
  | io s =>
    intro _
    rw [hsplit]
    simp
  | tokio | elapse => trivial

/-- What an action of the run bears out. -/
def Bears (lib : Libsrt) (b : Bridge) (x : Action) (g : ReplyId × Reply) : Prop :=
  ∃ s, x = .io s ∧ b.running = true ∧ Grants lib b s g.1 g.2

theorem mem_oks_act (b : Bridge) (x : Action) (g : ReplyId × Reply) :
    g ∈ (b.act lib x).oks ↔ g ∈ b.oks ∨ Bears lib b x g := by
  cases x with
  | io s =>
    by_cases hr : b.running = true
    · have hact : (b.act lib (.io s)).oks = (b.ioStep lib s).oks :=
        congrArg (List.filterMap IoEvent.ok) (trace_act hr s)
      rw [hact, (ioStep_gives lib b s).mem_iff]
      apply or_congr_right
      constructor
      · exact fun h => ⟨s, rfl, hr, h⟩
      · rintro ⟨s', hs, -, h⟩
        obtain rfl := Action.io.inj hs
        exact h
    · have hsame : b.act lib (.io s) = b := if_neg hr
      rw [hsame]
      refine (or_iff_left ?_).symm
      rintro ⟨s', -, hr', -⟩
      exact hr hr'
  | tokio t =>
    have hsame : (b.act lib (.tokio t)).oks = b.oks := by cases t <;> rfl
    rw [hsame]
    refine (or_iff_left ?_).symm
    rintro ⟨s, hs, -⟩
    cases hs
  | elapse d =>
    refine (or_iff_left ?_).symm
    rintro ⟨s, hs, -⟩
    cases hs

/-- A success has been told exactly when a step the thread took has borne it out. -/
theorem mem_oks_run (r : ReplyId) (a : Reply) : (r, a) ∈ (start.run lib actions).oks ↔
    ∃ pre s post, actions = pre ++ .io s :: post ∧ (start.run lib pre).running = true ∧
      Grants lib (start.run lib pre) s r a := by
  have hrun : (r, a) ∈ (start.run lib actions).oks ↔ (r, a) ∈ start.oks ∨
      ∃ pre x post, actions = pre ++ x :: post ∧ Bears lib (start.run lib pre) x (r, a) :=
    given_iff (p := fun (b : Bridge) g => g ∈ b.oks) mem_oks_act
  have hfirst : (r, a) ∉ start.oks := List.not_mem_nil
  rw [hrun, or_iff_right hfirst]
  constructor
  · rintro ⟨pre, x, post, hsplit, s, rfl, hr, hg⟩
    exact ⟨pre, s, post, hsplit, hr, hg⟩
  · rintro ⟨pre, s, post, hsplit, hr, hg⟩
    exact ⟨pre, .io s, post, hsplit, s, rfl, hr, hg⟩

/-- In every run a oneshot is told of a success exactly when a step the thread took has borne it
out; and where that step is an event, the oneshot came with a `Connect` of the event's socket. -/
theorem oks_borne_out (lib : Libsrt) (actions : List Action) (r : ReplyId) (a : Reply) :
    (r, a) ∈ (start.run lib actions).oks ↔
      ∃ pre s post, actions = pre ++ .io s :: post ∧ (start.run lib pre).running = true ∧
        Grants lib (start.run lib pre) s r a ∧
        ∀ id flags, s = .event id flags → ∃ addr, .io (.command (.connect id addr r)) ∈ pre := by
  rw [mem_oks_run]
  constructor
  · rintro ⟨pre, s, post, hsplit, hr, hg⟩
    refine ⟨pre, s, post, hsplit, hr, hg, ?_⟩
    rintro id flags rfl
    cases hg with
    | connected hw => exact waits_asked hw
  · rintro ⟨pre, s, post, hsplit, hr, hg, -⟩
    exact ⟨pre, s, post, hsplit, hr, hg⟩

end Runs

end Bridge

end SrtBridge
