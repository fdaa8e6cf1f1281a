import SrtBridge.Bridge.Agreement
import SrtBridge.Bridge.Connects

/-! Where the error of a reply comes from. libsrt keeps one last error for everything the
I/O thread does, so a reply can be trusted only where the read follows a call that failed
for the reply's own command. -/

namespace SrtBridge

open General

def Reply.error : Reply → Option SrtError
  | .socket (.error err) | .done (.error err) | .stats (.error err) => some err
  | _ => none

/-- Whom an event fails, and with what error. -/
def IoEvent.failure : IoEvent → Option (ReplyId × SrtError)
  | .answered reply a => a.error.map (reply, ·)
  | _ => none

namespace Bridge

/-- A libsrt call made for the command failed, and left the code. A member's code is the one
libsrt writes into its target. -/
inductive CallFailed (lib : Libsrt) (b : Bridge) : IoCommand → ℤ → Prop
  | createSocket {config reply} (h : lib.createSocket b.step < 0) :
      CallFailed lib b (.createSocket config reply) (lib.getlasterror b.step 0)
  | bind {id addr reply} (h : lib.bind b.step id addr < 0) :
      CallFailed lib b (.bind id addr reply) (lib.getlasterror b.step 0)
  | arm {id backlog reply slot} (hslot : b.accessSlot id = some slot)
      (h : lib.listenCallback b.step id slot < 0) :
      CallFailed lib b (.listen id backlog reply) (lib.getlasterror b.step 0)
  | listen {id backlog reply}
      (harm : ∀ slot, b.accessSlot id = some slot → 0 ≤ lib.listenCallback b.step id slot)
      (h : lib.listen b.step id backlog < 0) :
      CallFailed lib b (.listen id backlog reply) (lib.getlasterror b.step 1)
  | connect {id addr reply} (h : lib.connect b.step id addr < 0) :
      CallFailed lib b (.connect id addr reply) (lib.getlasterror b.step 0)
  | stats {id reply} (h : lib.bistats b.step id < 0) :
      CallFailed lib b (.getStats id reply) (lib.getlasterror b.step 0)
  | createGroup {mode config reply} (h : lib.createGroup b.step mode < 0) :
      CallFailed lib b (.createGroup mode config reply) (lib.getlasterror b.step 0)
  | connectGroup {id eps reply} (he : eps ≠ [])
      (h : (lib.connectGroup b.step id (eps.map prepareTarget)).1 < 0) :
      CallFailed lib b (.connectGroup id eps reply) (lib.getlasterror b.step 0)
  | member {id eps reply t} (ht : t ∈ connectTargets lib b.step id eps) (h : t.errorcode ≠ 0) :
      CallFailed lib b (.connectGroup id eps reply) t.errorcode
  | add {id ep reply} (hadd : AddConnects lib b id ep)
      (h : (lib.connectGroup b.step id [prepareTarget ep]).1 < 0) :
      CallFailed lib b (.addGroupMember id ep reply) (lib.getlasterror b.step 1)
  | added {id ep reply t} (hadd : AddConnects lib b id ep)
      (ht : t ∈ connectTargets lib b.step id [ep]) (h : t.errorcode ≠ 0) :
      CallFailed lib b (.addGroupMember id ep reply) t.errorcode

/-- An error of the bridge's own. -/
inductive BridgeError : IoStep → SrtError → Prop
  | closed {id} : BridgeError (.command (.close id)) .socketClosed
  | shutdown : BridgeError (.command .shutdown) .socketClosed
  | reaped : BridgeError .cleanup .connectionLost
  | noEndpoints {id reply} : BridgeError (.command (.connectGroup id [] reply)) .invalidParam
  | notAdded {id ep reply} : BridgeError (.command (.addGroupMember id ep reply)) .connectionLost

/-- Why a step answers `r` with an error: the error is the bridge's own, or the code of a call
that failed for the command that `r` came with. -/
inductive Explains (lib : Libsrt) (b : Bridge) (s : IoStep) (r : ReplyId) : SrtError → Prop
  | own {err} (h : BridgeError s err) : Explains lib b s r err
  | call {cmd code} (hs : s = .command cmd) (hr : cmd.reply = some r) (h : CallFailed lib b cmd code) :
      Explains lib b s r (.fromCode code)

/-- How libsrt keeps its last error: a call that fails leaves a code other than zero, and one that
succeeds leaves the code as it was. -/
structure KeepsCodes (lib : Libsrt) (b : Bridge) (s : IoStep) : Prop where
  failed : ∀ cmd code, s = .command cmd → CallFailed lib b cmd code → code ≠ 0
  /-- Between the two reads of a `Connect` only the socket's state is read. -/
  kept : ∀ id addr reply, s = .command (.connect id addr reply) → lib.connect b.step id addr < 0 →
    lib.getlasterror b.step 1 = lib.getlasterror b.step 0

/-- The step reports the last error although none of its calls has failed. -/
def readsStale (lib : Libsrt) (b : Bridge) : IoStep → Bool
  | .command (.connect id addr _) =>
    0 ≤ lib.connect b.step id addr &&
      lib.getsockstate b.step 0 id ∉ [.connected, .connecting, .opened, .init]
  | .event id flags =>
    flags.connect && lib.getsockstate b.step 0 id ≠ .connected &&
      b.waiting id fun e => !(e.isListener && flags.inp)
  | .poll id =>
    b.waiting id fun e => !(e.isGroup && e.lastStatus = .init) && lib.status b.step 0 id ≠ e.lastStatus &&
      lib.status b.step 0 id ∈ [.broken, .closed]
  | _ => false

/-- From `b` to `b'` every error reply is as `p` says. -/
def Fails (p : ReplyId → SrtError → Prop) (b b' : Bridge) : Prop :=
  ∃ es, b'.trace = b.trace ++ es ∧ ∀ x ∈ es, ∀ r err, x.failure = some (r, err) → p r err

section Fails

variable {p : ReplyId → SrtError → Prop} {lib : Libsrt} {b b' b'' : Bridge} {id : SocketId}
  {reply : ReplyId}

theorem Fails.of_trace (h : b'.trace = b.trace) : Fails p b b' :=
  ⟨[], by rw [h, List.append_nil], fun x hx => absurd hx List.not_mem_nil⟩

theorem Fails.refl (b : Bridge) : Fails p b b := .of_trace rfl

theorem Fails.trans (h : Fails p b b') (h' : Fails p b' b'') : Fails p b b'' := by
  obtain ⟨es, ht, hes⟩ := h
  obtain ⟨es', ht', hes'⟩ := h'
  refine ⟨es ++ es', by rw [ht', ht, List.append_assoc], fun x hx => ?_⟩
  exact (List.mem_append.mp hx).elim (hes x) (hes' x)

theorem Fails.emits {es : List IoEvent} (h : ∀ x ∈ es, x.failure = none) : Fails p b (b.emits es) := by
  refine ⟨es, rfl, fun x hx r err hf => ?_⟩
  rw [h x hx] at hf
  cases hf

theorem Fails.emit {x : IoEvent} (h : x.failure = none) : Fails p b (b.emit x) :=
  Fails.emits (List.forall_mem_singleton.mpr h)

theorem Fails.answer {a : Reply} (h : ∀ err, a.error = some err → p reply err) :
    Fails p b (b.answer reply a) := by
  refine ⟨[.answered reply a], rfl, fun x hx r err hf => ?_⟩
  obtain rfl := List.mem_singleton.mp hx
  obtain ⟨err', ha, hrep⟩ := Option.map_eq_some_iff.mp hf
  obtain ⟨rfl, rfl⟩ := Prod.mk.inj hrep
  exact h err' ha

theorem Fails.succeed {a : Reply} (h : a.error = none) : Fails p b (b.answer reply a) := by
  apply Fails.answer
  intro err herr
  rw [h] at herr
  cases herr

theorem Fails.setOptions (calls : List OptCall) : Fails p b (b.setOptions lib id calls) :=
  Fails.emits (List.forall_mem_map.mpr fun _ _ => rfl)

theorem Fails.modify (f : SocketState → SocketState) : Fails p b (b.modify id f) := by
  apply Fails.of_trace
  unfold Bridge.modify
  split <;> rfl

theorem Fails.record (q : SocketStatus) : Fails p b (b.record id q) := by
  unfold Bridge.record
  split
  · exact Fails.emit (b := b.setEntry id _) rfl
  · exact .refl b

theorem Fails.enter {s : SocketState} : Fails p b (b.enter id s) :=
  Fails.emit (b := b.setEntry id s) rfl

theorem Fails.putGroup (r : GroupRun) : Fails p b (b.putGroup id r) :=
  Fails.emits (b := b.setEntry id r.entry) (List.forall_mem_map.mpr fun _ _ => rfl)

theorem Fails.closeAndDrop : Fails p b (b.closeAndDrop id) := by
  have hrelease (c : Bridge) : Fails p c (c.release id) := by
    unfold release
    split
    · exact ⟨[.released id], rfl, by simp [IoEvent.failure]⟩
    · exact .refl c
  have hclose : Fails p b (b.closeAndRelease id) := by
    unfold closeAndRelease
    dsimp only
    split_ifs
    · exact (Fails.emit rfl).trans (hrelease _)
    · exact ((Fails.emit rfl).trans (Fails.emit rfl)).trans (hrelease _)
  unfold Bridge.closeAndDrop
  split
  · exact hclose.trans (Fails.emit rfl)
  · exact hclose

end Fails

section Commands

variable {lib : Libsrt} {b : Bridge} {id : SocketId} {reply : ReplyId}

theorem Explains.last {cmd : IoCommand} {j : ℕ} (hr : cmd.reply = some reply)
    (h : CallFailed lib b cmd (lib.getlasterror b.step j)) :
    Explains lib b (.command cmd) reply (lib.lastSrtError b.step j) :=
  .call rfl hr h

theorem createSocket_fails (config : SrtConfig) :
    Fails (Explains lib b (.command (.createSocket config reply))) b
      (b.createSocket lib config reply) := by
  unfold createSocket
  dsimp only
  split_ifs with h
  · apply Fails.answer
    rintro err ⟨⟩
    exact .last rfl (.createSocket h)
  · exact (((Fails.emit rfl).trans (Fails.setOptions _)).trans (Fails.setOptions _)).trans
      (Fails.succeed rfl)

theorem bindSocket_fails (addr : SocketAddr) :
    Fails (Explains lib b (.command (.bind id addr reply))) b (b.bindSocket lib id addr reply) := by
  unfold bindSocket
  split_ifs with h
  · apply (Fails.emit (x := .bound id false) rfl).trans
    apply Fails.answer
    rintro err ⟨⟩
    exact .last rfl (.bind h)
  · exact (Fails.emit rfl).trans (Fails.succeed rfl)

theorem listen_fails (backlog : ℤ) :
    Fails (Explains lib b (.command (.listen id backlog reply))) b (b.listen lib id backlog reply) := by
  have hon (c : Bridge) (hstep : c.step = b.step)
      (harm : ∀ slot, b.accessSlot id = some slot → 0 ≤ lib.listenCallback b.step id slot) :
      Fails (Explains lib b (.command (.listen id backlog reply))) c (c.listenOn lib id backlog reply) := by
    unfold listenOn
    rw [hstep]
    split_ifs with hl
    · apply ((Fails.emit (x := .listening id false) rfl).trans Fails.closeAndDrop).trans
      apply Fails.answer
      rintro err ⟨⟩
      exact .last rfl (.listen harm hl)
    · exact ((((Fails.emit rfl).trans (Fails.emit rfl)).trans (Fails.modify _)).trans
        (Fails.record _)).trans (Fails.succeed rfl)
  unfold listen registerListenCallback
  cases hslot : b.accessSlot id with
  | none => exact hon b rfl fun slot h => by rw [hslot] at h; cases h
  | some slot =>
    dsimp only
    by_cases hlt : lib.listenCallback b.step id slot < 0
    · rw [if_pos hlt]
      apply ((Fails.emit (x := .armed id slot false) rfl).trans Fails.closeAndDrop).trans
      apply Fails.answer
      rintro err ⟨⟩
      exact .last rfl (.arm hslot hlt)
    · rw [if_neg hlt]
      refine (Fails.emit rfl).trans (hon _ rfl fun slot' h => ?_)
      obtain rfl := Option.some.inj (hslot.symm.trans h)
      exact not_lt.mp hlt

theorem awaitConnect_fails {p : ReplyId → SrtError → Prop} : Fails p b (b.awaitConnect id reply) := by
  unfold awaitConnect
  split
  · exact Fails.emit rfl
  · dsimp only
    split
    · exact ((Fails.emit rfl).trans (Fails.modify _)).trans (Fails.record _)
    · exact (Fails.modify _).trans (Fails.record _)

theorem connect_fails {addr : SocketAddr}
    (hkept : lib.connect b.step id addr < 0 → lib.getlasterror b.step 1 = lib.getlasterror b.step 0)
    (hread : readsStale lib b (.command (.connect id addr reply)) = false) :
    Fails (Explains lib b (.command (.connect id addr reply))) b (b.connect lib id addr reply) := by
  unfold connect
  dsimp only
  split_ifs with ha
  · apply (Fails.emit (x := .connecting id) rfl).trans
    apply Fails.answer
    rintro err ⟨⟩
    exact .last rfl (.connect ha.1)
  · apply (Fails.emit (x := .connecting id) rfl).trans
    -- the state does not say that the handshake goes on, so the call itself has failed
    have hfail (hq : lib.getsockstate b.step 0 id ∉ [.connected, .connecting, .opened, .init]) :
        Fails (Explains lib b (.command (.connect id addr reply))) (b.emit (.connecting id))
          ((b.emit (.connecting id)).answer reply (.done (.error (lib.lastSrtError b.step 1)))) := by
      apply Fails.answer
      rintro err ⟨⟩
      have hlt : lib.connect b.step id addr < 0 := by
        by_contra hge
        simp only [readsStale, decide_eq_true (not_lt.mp hge), decide_eq_true hq] at hread
        cases hread
      refine .last rfl ?_
      rw [hkept hlt]
      exact .connect hlt
    cases hq : lib.getsockstate b.step 0 id with
    | connected => exact ((Fails.emit rfl).trans (Fails.record _)).trans (Fails.succeed rfl)
    | connecting | opened | init => exact (Fails.emit rfl).trans awaitConnect_fails
    | _ => exact hfail (by simp [hq])

theorem getStats_fails :
    Fails (Explains lib b (.command (.getStats id reply))) b (b.processCommand lib (.getStats id reply)) := by
  apply Fails.answer
  intro err herr
  split_ifs at herr with h
  · obtain rfl := Option.some.inj herr
    exact .last rfl (.stats h)
  · cases herr

theorem createGroup_fails (mode : GroupType) (config : SrtConfig) :
    Fails (Explains lib b (.command (.createGroup mode config reply))) b
      (b.createGroup lib mode config reply) := by
  unfold createGroup
  dsimp only
  split_ifs with h
  · apply Fails.answer
    rintro err ⟨⟩
    exact .last rfl (.createGroup h)
  · exact ((((Fails.emit rfl).trans (Fails.setOptions _)).trans (Fails.setOptions _)).trans
      Fails.enter).trans (Fails.succeed rfl)

theorem connectRefused_cases {k j : ℕ} {grp : SocketId} {eps : List GroupEndpoint} {err : SrtError}
    (h : connectRefused lib k j grp eps = some err) :
    (lib.connectGroup k grp (eps.map prepareTarget)).1 < 0 ∧ err = lib.lastSrtError k j ∨
      ∃ t ∈ connectTargets lib k grp eps, t.errorcode ≠ 0 ∧ err = .fromCode t.errorcode := by
  unfold connectRefused at h
  split_ifs at h with hlt
  split at h
  · rename_i t ht
    have hcode := List.find?_some ht
    exact .inr ⟨t, List.mem_of_find?_eq_some ht, by simpa using hcode, (Option.some.inj h).symm⟩
  · exact .inl ⟨hlt, (Option.some.inj h).symm⟩

theorem connectGroup_fails (eps : List GroupEndpoint) :
    Fails (Explains lib b (.command (.connectGroup id eps reply))) b
      (b.connectGroup lib id eps reply) := by
  unfold Bridge.connectGroup
  cases hr : (SrtBridge.connectGroup lib b.step 0 id eps).refused with
  | none =>
    dsimp only
    refine Fails.trans ?_ (Fails.succeed rfl)
    split
    · exact ((Fails.emit rfl).trans (Fails.putGroup _)).trans (Fails.emit rfl)
    · exact Fails.emit rfl
  | some err =>
    apply Fails.answer
    rintro _ ⟨⟩
    unfold SrtBridge.connectGroup at hr
    split_ifs at hr with he
    · subst he
      obtain rfl := Option.some.inj hr
      exact .own .noEndpoints
    · obtain ⟨hlt, rfl⟩ | ⟨t, ht, hcode, rfl⟩ := connectRefused_cases hr
      · exact .last rfl (.connectGroup he hlt)
      · exact .call rfl rfl (.member ht hcode)

theorem error_mem_claimKept {rows : List GroupData} {before claimed : List SocketId}
    {ts : List (GroupConfig × Except SrtError SocketId)} {err : SrtError}
    (h : .error err ∈ claimKept rows before claimed ts) : .error err ∈ ts.map Prod.snd := by
  induction ts generalizing claimed with
  | nil => exact h
  | cons p ts ih =>
    obtain ⟨t, member⟩ := p
    rw [List.map_cons]
    simp only [claimKept] at h
    split_ifs at h
    · exact (List.mem_cons.mp h).elim (fun he => he ▸ List.mem_cons_self ..) fun hr =>
        List.mem_cons_of_mem _ (ih hr)
    · split at h
      · exact List.mem_cons_of_mem _ (ih ((List.mem_cons.mp h).resolve_left (by simp)))
      · exact (List.mem_cons.mp h).elim (fun he => he ▸ List.mem_cons_self ..) fun hr =>
          List.mem_cons_of_mem _ (ih hr)

theorem error_mem_connectMembers {k j : ℕ} {grp : SocketId} {eps : List GroupEndpoint} {err : SrtError}
    (h : .error err ∈ connectMembers lib k j grp eps) : err = .connectionLost ∨
      ∃ t ∈ connectTargets lib k grp eps, t.errorcode ≠ 0 ∧ err = .fromCode t.errorcode := by
  have htarget : .error err ∈ (connectTargets lib k grp eps).map GroupConfig.result := by
    unfold connectMembers at h
    dsimp only at h
    split_ifs at h
    · have hzip := error_mem_claimKept h
      rwa [List.map_snd_zip (by simp)] at hzip
    · exact h
  obtain ⟨t, ht, hres⟩ := List.mem_map.mp htarget
  unfold GroupConfig.result at hres
  split_ifs at hres with hok hcode
  · obtain rfl := Except.error.inj hres
    exact .inr ⟨t, ht, hcode, rfl⟩
  · exact .inl (Except.error.inj hres).symm

theorem single_error_cases {k j : ℕ} {grp : SocketId} {ep : GroupEndpoint} {err : SrtError}
    (h : (SrtBridge.connectGroup lib k j grp [ep]).single = .error err) :
    connectRefused lib k j grp [ep] = some err ∨ .error err ∈ connectMembers lib k j grp [ep] := by
  obtain ⟨m, hm⟩ := connectGroup_members_one lib k j grp ep
  have hrefused : (SrtBridge.connectGroup lib k j grp [ep]).refused = connectRefused lib k j grp [ep] := rfl
  have hmembers : connectMembers lib k j grp [ep] = [m] := hm
  unfold GroupConnect.single at h
  rw [hm, hrefused] at h
  rw [hmembers]
  cases m with
  | ok id => cases h
  | error err' =>
    cases hr : connectRefused lib k j grp [ep] with
    | some err'' =>
      rw [hr] at h
      obtain rfl := Except.error.inj h
      exact .inl rfl
    | none =>
      rw [hr] at h
      obtain rfl := Except.error.inj h
      exact .inr (List.mem_singleton_self _)

theorem addGroupMember_error {s : SocketState} {ep : GroupEndpoint} {err : SrtError} (reply : ReplyId)
    (hs : b.entry id = some s) (h : ((b.groupRun s).addGroupMember lib id ep).1 = .error err) :
    err = .connectionLost ∨ ∃ code, err = .fromCode code ∧
      CallFailed lib b (.addGroupMember id ep reply) code := by
  unfold GroupRun.addGroupMember at h
  dsimp only at h
  split_ifs at h with hg hc
  · exact .inl (Except.error.inj h).symm
  · cases hf : memberInFlight lib b.step 1 (readGroupRows lib b.step 0 id) ep.token [] with
    | some other =>
      simp only [groupRun, hf] at h
      cases h
    | none =>
      have hadd : AddConnects lib b id ep := ⟨⟨s, hs, hg⟩, not_not.mp hc, hf⟩
      simp only [groupRun, hf] at h
      split at h
      · rename_i err' hsingle
        obtain rfl := Except.error.inj h
        rcases single_error_cases hsingle with hr | hm
        · obtain ⟨hlt, rfl⟩ | ⟨t, ht, hcode, rfl⟩ := connectRefused_cases hr
          · exact .inr ⟨_, rfl, .add hadd hlt⟩
          · exact .inr ⟨_, rfl, .added hadd ht hcode⟩
        · obtain rfl | ⟨t, ht, hcode, rfl⟩ := error_mem_connectMembers hm
          · exact .inl rfl
          · exact .inr ⟨_, rfl, .added hadd ht hcode⟩
      · cases h
  · exact .inl (Except.error.inj h).symm

theorem addGroupMember_fails (ep : GroupEndpoint) :
    Fails (Explains lib b (.command (.addGroupMember id ep reply))) b
      (b.addGroupMember lib id ep reply) := by
  unfold Bridge.addGroupMember
  cases hs : b.entry id with
  | none =>
    apply Fails.answer
    rintro err ⟨⟩
    exact .own .notAdded
  | some s =>
    apply (Fails.putGroup _).trans
    apply Fails.answer
    intro err herr
    cases hr : ((b.groupRun s).addGroupMember lib id ep).1 with
    | ok =>
      rw [hr] at herr
      cases herr
    | error err' =>
      rw [hr] at herr
      obtain rfl := Option.some.inj herr
      obtain rfl | ⟨code, rfl, hcall⟩ := addGroupMember_error reply hs hr
      · exact .own .notAdded
      · exact .call rfl rfl hcall

end Commands

section Steps

variable {lib : Libsrt} {b c c' : Bridge} {s : IoStep} {i : SocketId}

theorem failure_plain {x : IoEvent} (h : x.isPlain = true) : x.failure = none := by
  cases x with
  | answered => cases h
  | _ => rfl

/-- The connect that waits on a closed entry gets an error of the bridge's own. -/
theorem Closes.fails {e₀ : Option SocketState} {e : SocketState} {es : List IoEvent}
    (h : Closes s e₀ i e es) : ∀ x ∈ es, ∀ r err, x.failure = some (r, err) → BridgeError s err := by
  intro x hx r err hf
  cases h with
  | listen =>
    obtain ⟨r', -, rfl⟩ := Option.map_eq_some_iff.mp (Option.mem_toList.mp hx)
    cases hf
  | close hs | shutdown hs | reaped hs =>
    obtain ⟨r', -, rfl⟩ := Option.map_eq_some_iff.mp (Option.mem_toList.mp hx)
    cases hf
    subst hs
    constructor

theorem Change.fails {new : Option SocketState} {e : Option SocketState} {es : List IoEvent}
    (h : Change lib s b.step (b.entry i) i e new es) (hp : ∀ id, s ≠ .poll id)
    (hread : readsStale lib b s = false) :
    ∀ x ∈ es, ∀ r err, x.failure = some (r, err) → Explains lib b s r err := by
  intro x hx r err hf
  have hnone {x : IoEvent} (h : x.failure = none) (hf : x.failure = some (r, err)) :
      Explains lib b s r err := by
    rw [h] at hf
    cases hf
  cases h with
  | enter | register | record | listen =>
    obtain rfl := List.mem_singleton.mp hx
    exact hnone rfl hf
  | provide => cases hx
  | await =>
    rcases List.mem_append.mp hx with hx | hx
    · obtain ⟨r', -, rfl⟩ := Option.map_eq_some_iff.mp (Option.mem_toList.mp hx)
      exact hnone rfl hf
    · obtain rfl := List.mem_singleton.mp hx
      exact hnone rfl hf
  | complete hs hflag hi h₀ hr hq =>
    rename_i e flags reply result q
    rcases hq with ⟨-, -, rfl⟩ | ⟨hne, -⟩
    · obtain rfl | rfl : x = _ ∨ x = _ := by simpa using hx
      · exact hnone rfl hf
      · exact hnone rfl hf
    · subst hs
      have hstale : readsStale lib b (.event i flags) = true := by
        have hin : e.isListener = false ∨ flags.inp = false := by simpa [imp_iff_not_or] using hi
        simp [readsStale, waiting, hflag, hne, h₀, hr, hin]
      rw [hstale] at hread
      cases hread
  | fail hs => exact absurd hs (hp i)
  | watch hes =>
    obtain ⟨m, rfl⟩ := hes x hx
    exact hnone rfl hf
  | close hpre hcl =>
    rcases List.mem_append.mp hx with hx | hx
    · exact hnone (failure_plain (hpre x hx)) hf
    · obtain rfl | rfl | hx : x = _ ∨ x = _ ∨ x ∈ _ := by simpa using hx
      · exact hnone rfl hf
      · exact hnone rfl hf
      · exact .own (hcl.fails x hx r err hf)

theorem Moved.fails (h : Moved lib s b c c') (hs : ∀ cmd, s = .command cmd → cmd.reply = none)
    (hp : ∀ id, s ≠ .poll id) (hread : readsStale lib b s = false) :
    Fails (Explains lib b s) c c' := by
  cases h with
  | note hes _ ht =>
    refine ⟨_, ht, fun x hx r err hf => ?_⟩
    rw [failure_plain (hes x hx)] at hf
    cases hf
  | answer hcmd hr =>
    rw [hs _ hcmd] at hr
    cases hr
  | arm | subscribe | listening | accepted => exact Fails.emit rfl
  | change hch _ ht => exact ⟨_, ht, hch.fails hp hread⟩
  | take => exact ⟨_, trace_deliver _, by simp [IoEvent.failure]⟩
  | send =>
    obtain ⟨es, ht, hes⟩ := trace_handleSend lib c _
    refine ⟨es, ht, fun x hx r err hf => ?_⟩
    obtain ⟨data, ok, rfl⟩ := hes x hx
    cases hf
  | handOver => exact .of_trace rfl

/-- A step that comes with no oneshot and polls no state. -/
theorem quiet_fails (hs : ∀ cmd, s = .command cmd → cmd.reply = none) (hp : ∀ id, s ≠ .poll id)
    (hread : readsStale lib b s = false) : Fails (Explains lib b s) b (b.ioStep lib s) :=
  (ioStep_moves lib b s).keep (P := Fails (Explains lib b s) b)
    (fun _ _ hm hb => hb.trans (hm.fails hs hp hread)) (.refl b)

theorem poll_fails (hread : readsStale lib b (.poll i) = false) :
    Fails (Explains lib b (.poll i)) b (b.poll lib i) := by
  unfold poll
  cases he : b.entry i with
  | none => exact .refl b
  | some e =>
    dsimp only
    split_ifs with hskip hend
    · exact .refl b
    · have hnone : e.connectReply = none := by
        by_contra hw
        rw [not_or, not_and_or, Bool.not_eq_true] at hskip
        have hstale : readsStale lib b (.poll i) = true := by
          simp [readsStale, waiting, he, Option.isSome_iff_ne_none, hw, hskip, hend]
        rw [hstale] at hread
        cases hread
      have hreply : (b.record i (lib.status b.step 0 i)).connectReply i = none := by
        have hent : (b.record i (lib.status b.step 0 i)).entry i =
            some (e.updateStatus (lib.status b.step 0 i)) := by
          rw [entry_record, if_pos rfl, he]
          rfl
        rw [connectReply_some hent, SocketState.updateStatus_connectReply, hnone]
      unfold failConnect
      rw [hreply]
      exact Fails.record _
    · exact Fails.record _

/-- The step's error replies are explained, as long as it reads no stale error. -/
theorem ioStep_fails (hcodes : KeepsCodes lib b s) (hread : readsStale lib b s = false) :
    Fails (Explains lib b s) b (b.ioStep lib s) := by
  cases s with
  | poll id => exact poll_fails hread
  | event | drain | sweep | check | cleanup =>
    exact quiet_fails (fun _ h => by cases h) (fun _ h => by cases h) hread
  | command cmd =>
    cases cmd with
    | createSocket config reply => exact createSocket_fails config
    | bind id addr reply => exact bindSocket_fails addr
    | listen id backlog reply => exact listen_fails backlog
    | connect id addr reply => exact connect_fails (hcodes.kept id addr reply rfl) hread
    | getStats id reply => exact getStats_fails
    | createGroup mode config reply => exact createGroup_fails mode config
    | connectGroup id eps reply => exact connectGroup_fails eps
    | addGroupMember id ep reply => exact addGroupMember_fails ep
    | getState | getPeerAddr | getLocalAddr | getStreamId | getGroupMemberStats => exact Fails.succeed rfl
    | registerSocket | registerListener | close | shutdown =>
      refine quiet_fails (fun cmd h => ?_) (fun _ h => by cases h) hread
      obtain rfl := IoStep.command.inj h
      rfl

end Steps

section Stale

variable {lib : Libsrt} {b : Bridge} {s : IoStep} {id : SocketId} {flags : EpollFlags}

theorem exists_of_waiting {p : SocketState → Bool} (h : b.waiting id p = true) :
    ∃ e reply, b.entry id = some e ∧ e.connectReply = some reply ∧ p e = true := by
  unfold waiting at h
  obtain ⟨e, he, hp⟩ := (Option.any_eq_true _ _).mp h
  obtain ⟨hw, hp⟩ := Bool.and_eq_true_iff.mp hp
  obtain ⟨reply, hr⟩ := Option.isSome_iff_exists.mp hw
  exact ⟨e, reply, he, hr, hp⟩

/-- What the connect event does, the rest of the event's step leaves in the record. -/
theorem connectCompletion_kept (lib : Libsrt)
    (hi : ¬((b.entry id).any SocketState.isListener = true ∧ flags.inp = true)) (hc : flags.connect = true) :
    Fails (fun _ _ => True) (b.connectCompletion lib id) (b.processEvent lib id flags) := by
  have hrecv (c : Bridge) : Fails (fun _ _ => True) c (c.handleRecv lib 1 id) := by
    have hm : Moves lib (.event id flags) c c (c.handleRecv lib 1 id) :=
      handleRecv_moves (.inl ⟨flags, rfl⟩) 1
    obtain ⟨es, ht, -⟩ := hm.trace
    exact ⟨es, ht, fun _ _ _ _ _ => trivial⟩
  have hsend (c : Bridge) : Fails (fun _ _ => True) c (c.handleSend lib id) := by
    obtain ⟨es, ht, -⟩ := trace_handleSend lib c id
    exact ⟨es, ht, fun _ _ _ _ _ => trivial⟩
  have herr (c : Bridge) : Fails (fun _ _ => True) c (c.errorEvent lib id) := by
    unfold errorEvent
    split
    · split_ifs
      · exact .refl c
      · exact Fails.record _
    · exact .refl c
  have hif {c c' : Bridge} (t : Bool) (h : Fails (fun _ _ => True) c c') :
      Fails (fun _ _ => True) c (if t = true then c' else c) := by
    split_ifs
    · exact h
    · exact .refl c
  unfold processEvent
  rw [if_neg hi]
  dsimp only
  rw [if_pos hc]
  exact ((hif flags.inp (hrecv _)).trans (hif flags.out (hsend _))).trans (hif flags.err (herr _))

theorem stale_reports (h : readsStale lib b s = true) :
    ∃ r j es, (b.ioStep lib s).trace = b.trace ++ es ∧
      .answered r (.done (.error (lib.lastSrtError b.step j))) ∈ es := by
  cases s with
  | command cmd =>
    cases cmd with
    | connect i addr reply =>
      simp only [readsStale, Bool.and_eq_true, decide_eq_true_eq] at h
      obtain ⟨hge, hq⟩ := h
      refine ⟨reply, 1, [.connecting i, .answered reply (.done (.error (lib.lastSrtError b.step 1)))], ?_,
        by simp⟩
      show (b.connect lib i addr reply).trace = _
      unfold connect
      dsimp only
      rw [if_neg fun hlt => absurd hlt.1 (not_lt.mpr hge)]
      cases hs : lib.getsockstate b.step 0 i with
      | connected | connecting | opened | init => simp [hs] at hq
      | _ => simp
    | _ => cases h
  | event i flags =>
    simp only [readsStale, Bool.and_eq_true, decide_eq_true_eq] at h
    obtain ⟨⟨hc, hne⟩, hw⟩ := h
    obtain ⟨e, reply, he, hr, hi⟩ := exists_of_waiting hw
    have hlis : ¬((b.entry i).any SocketState.isListener = true ∧ flags.inp = true) := by
      simpa [he, imp_iff_not_or] using hi
    have hanswer : (b.connectCompletion lib i).trace =
        b.trace ++ [.answered reply (.done (.error (lib.lastSrtError b.step 0))), .recorded i .broken] := by
      unfold connectCompletion
      rw [connectReply_some he, hr]
      dsimp only
      rw [modify_some he]
      refine (congrArg Bridge.trace (if_neg hne)).trans ?_
      rw [record_some (e := { e with connectReply := none }) (by rw [entry_answer, entry_setEntry, if_pos rfl])]
      simp [setEntry]
    obtain ⟨es, ht, -⟩ := connectCompletion_kept lib hlis hc
    rw [hanswer, List.append_assoc] at ht
    exact ⟨reply, 0, _, ht, List.mem_append_left _ (List.mem_cons_self ..)⟩
  | poll i =>
    obtain ⟨e, reply, he, hr, hp⟩ := exists_of_waiting h
    simp only [Bool.and_eq_true, decide_eq_true_eq] at hp
    obtain ⟨⟨hg, hne⟩, hend⟩ := hp
    refine ⟨reply, 0, [.recorded i (lib.status b.step 0 i),
      .answered reply (.done (.error (lib.lastSrtError b.step 0)))], ?_, by simp⟩
    show (b.poll lib i).trace = _
    have hskip : ¬(e.isGroup = true ∧ e.lastStatus = .init ∨ lib.status b.step 0 i = e.lastStatus) := by
      simpa [hne, imp_iff_not_or] using hg
    have hent : (b.record i (lib.status b.step 0 i)).entry i =
        some (e.updateStatus (lib.status b.step 0 i)) := by
      rw [entry_record, if_pos rfl, he]
      rfl
    unfold poll
    rw [he]
    dsimp only
    rw [if_neg hskip, if_pos (by simpa using hend)]
    unfold failConnect
    rw [connectReply_some hent, SocketState.updateStatus_connectReply, hr]
    dsimp only
    rw [modify_some hent, record_some he]
    simp [emit, setEntry]
  | drain | sweep | check | cleanup => cases h

end Stale

theorem recorded_kept {lib : Libsrt} {b : Bridge} {x : IoEvent} (hx : x ∈ b.trace) (actions : List Action) :
    x ∈ (b.run lib actions).trace := by
  have hkeeps : Keeps lib (fun _ _ => True) fun b => x ∈ b.trace := by
    refine ⟨fun _ _ _ hm hx => ?_, fun t hx => ?_, fun _ ht _ hx => ht ▸ hx⟩
    · obtain ⟨es, ht, -⟩ := hm.trace
      exact ht ▸ List.mem_append_left _ hx
    · cases t <;> exact hx
  exact hkeeps.run (stepsMeet_of_forall (fun _ _ => trivial) _ _) hx

def does (lib : Libsrt) (b : Bridge) (s : IoStep) : List IoEvent :=
  (b.ioStep lib s).trace.drop b.trace.length

/-- No error reply of the run carries success, and each is explained by the step that sends it. -/
def ErrorsExplained (lib : Libsrt) (actions : List Action) : Prop :=
  ∀ x ∈ (start.run lib actions).trace, ∀ r err, x.failure = some (r, err) → err ≠ .success ∧
    ∃ pre s post, actions = pre ++ .io s :: post ∧ x ∈ does lib (start.run lib pre) s ∧
      Explains lib (start.run lib pre) s r err

section Runs

variable {lib : Libsrt} {b : Bridge} {s : IoStep} {r : ReplyId} {err : SrtError} {actions : List Action}

theorem Explains.ne_success (h : Explains lib b s r err) (hcodes : KeepsCodes lib b s) :
    err ≠ .success := by
  cases h with
  | own h => cases h <;> decide
  | call hs hr h =>
    intro hsuccess
    exact hcodes.failed _ _ hs h (SrtError.fromCode_eq_success.mp hsuccess)

/-- In every run in which libsrt keeps its last error as it should, and no step reports the last
error although none of its calls has failed, the error replies are explained. -/
theorem errors_explained (hcodes : StepsMeet lib (KeepsCodes lib) start actions)
    (hread : StepsMeet lib (fun b s => readsStale lib b s = false) start actions) :
    ErrorsExplained lib actions := by
  induction actions using List.reverseRecOn with
  | nil =>
    intro x hx
    exact absurd hx List.not_mem_nil
  | append_singleton pre a ih =>
    obtain ⟨hcodes, hlast, -⟩ := StepsMeet.append.mp hcodes
    obtain ⟨hread, hnow, -⟩ := StepsMeet.append.mp hread
    intro x hx r err hf
    have hrun : start.run lib (pre ++ [a]) = (start.run lib pre).act lib a := List.foldl_append ..
    have hbefore (hx : x ∈ (start.run lib pre).trace) : err ≠ .success ∧
        ∃ pre' s post, pre ++ [a] = pre' ++ .io s :: post ∧ x ∈ does lib (start.run lib pre') s ∧
          Explains lib (start.run lib pre') s r err := by
      obtain ⟨hne, pre', s, post, rfl, hin, hex⟩ := ih hcodes hread x hx r err hf
      exact ⟨hne, pre', s, post ++ [a], List.append_assoc .., hin, hex⟩
    rw [hrun] at hx
    cases a with
    | tokio t => cases t <;> exact hbefore hx
    | elapse => exact hbefore hx
    | io s =>
      by_cases hr : (start.run lib pre).running = true
      · obtain ⟨es, ht, hes⟩ := ioStep_fails (hlast hr) (hnow hr)
        rw [trace_act hr, ht] at hx
        obtain hx | hx := List.mem_append.mp hx
        · exact hbefore hx
        · have hin : x ∈ does lib (start.run lib pre) s := by
            unfold does
            rw [ht, List.drop_left]
            exact hx
          have hex := hes x hx r err hf
          exact ⟨hex.ne_success (hlast hr), pre, s, [], rfl, hin, hex⟩
      · have hsame : (start.run lib pre).act lib (.io s) = start.run lib pre := if_neg hr
        rw [hsame] at hx
        exact hbefore hx

end Runs

/-- A library that refuses every call says why. -/
theorem errors_explained_refused :
    ErrorsExplained .refusing [.io (.command (.createSocket {} 0)),
      .io (.command (.connect 7 (.v4 0x7f000001 9000) 1)), .io (.command (.getStats 7 2))] := by
  have hcodes (b : Bridge) (s : IoStep) : KeepsCodes .refusing b s := by
    have hcode : (5004 : ℤ) ≠ 0 := by decide
    refine ⟨fun cmd code _ h => ?_, fun _ _ _ _ _ => rfl⟩
    cases h with
    | member _ h | added _ _ h => exact h
    | _ => exact hcode
  exact errors_explained (stepsMeet_of_forall hcodes _ _) (by decide)

end Bridge

/-- No call fails, and the last error stays zero, as it was at first. -/
structure Libsrt.NeverFails (lib : Libsrt) : Prop where
  createSocket : ∀ k, 0 ≤ lib.createSocket k
  createGroup : ∀ k mode, 0 ≤ lib.createGroup k mode
  setsockflag : ∀ k j id opt v, lib.setsockflag k j id opt v = true
  getsockflag : ∀ k id opt, lib.getsockflag k id opt ≠ none
  getlasterror : ∀ k j, lib.getlasterror k j = 0
  bind : ∀ k id addr, 0 ≤ lib.bind k id addr
  listenCallback : ∀ k id slot, 0 ≤ lib.listenCallback k id slot
  listen : ∀ k id backlog, 0 ≤ lib.listen k id backlog
  connect : ∀ k id addr, 0 ≤ lib.connect k id addr
  accept : ∀ k id, 0 ≤ lib.accept k id
  /-- There is nothing to receive. -/
  recvmsg : ∀ k j id, lib.recvmsg k j id = []
  sendmsg : ∀ k j id data, 0 ≤ lib.sendmsg k j id data
  groupData : ∀ k j id, lib.groupData k j id ≠ none
  connectGroup : ∀ k id targets, 0 ≤ (lib.connectGroup k id targets).1
  getsockname : ∀ k id, lib.getsockname k id ≠ none
  getpeername : ∀ k id, lib.getpeername k id ≠ none
  bistats : ∀ k id, 0 ≤ lib.bistats k id

/-- A library none of whose calls fails, which reads every socket in the state given for the
step. -/
def Libsrt.succeeding (state : ℕ → SockState) : Libsrt :=
  { Libsrt.reading state with
    getlasterror := fun _ _ => 0
    accept := fun _ _ => 9
    getsockflag := fun _ _ _ => some 0
    getsockname := fun _ _ => some (.v4 0x7f000001 9000)
    getpeername := fun _ _ => some (.v4 0x7f000001 9000)
    bistats := fun _ _ => 0 }

theorem Libsrt.neverFails_succeeding (state : ℕ → SockState) :
    (Libsrt.succeeding state).NeverFails where
  createSocket _ := (by decide : (0 : ℤ) ≤ 7)
  createGroup _ _ := (by decide : (0 : ℤ) ≤ 7)
  setsockflag _ _ _ _ _ := rfl
  getsockflag _ _ _ := Option.some_ne_none _
  getlasterror _ _ := rfl
  bind _ _ _ := le_rfl
  listenCallback _ _ _ := le_rfl
  listen _ _ _ := le_rfl
  connect _ _ _ := le_rfl
  accept _ _ := (by decide : (0 : ℤ) ≤ 9)
  recvmsg _ _ _ := rfl
  sendmsg _ _ _ _ := le_rfl
  groupData _ _ _ := Option.some_ne_none _
  connectGroup _ _ _ := le_rfl
  getsockname _ _ := Option.some_ne_none _
  getpeername _ _ := Option.some_ne_none _
  bistats _ _ := le_rfl

theorem Libsrt.NeverFails.keepsCodes {lib : Libsrt} (h : lib.NeverFails) (b : Bridge) (s : Bridge.IoStep) :
    Bridge.KeepsCodes lib b s := by
  refine ⟨fun cmd code _ hfail => ?_, fun _ _ _ _ _ => by rw [h.getlasterror, h.getlasterror]⟩
  cases hfail with
  | member _ hcode | added _ _ hcode => exact hcode
  | createSocket hlt => exact absurd hlt (not_lt.mpr (h.createSocket _))
  | bind hlt => exact absurd hlt (not_lt.mpr (h.bind ..))
  | arm _ hlt => exact absurd hlt (not_lt.mpr (h.listenCallback ..))
  | listen _ hlt => exact absurd hlt (not_lt.mpr (h.listen ..))
  | connect hlt => exact absurd hlt (not_lt.mpr (h.connect ..))
  | stats hlt => exact absurd hlt (not_lt.mpr (h.bistats ..))
  | createGroup hlt => exact absurd hlt (not_lt.mpr (h.createGroup ..))
  | connectGroup _ hlt => exact absurd hlt (not_lt.mpr (h.connectGroup ..))
  | add _ hlt => exact absurd hlt (not_lt.mpr (h.connectGroup ..))

namespace Bridge

section NeverFails

variable {lib : Libsrt} {actions : List Action}

/-- When no call fails, the error replies are explained only if no stale error is read. -/
theorem errors_explained_iff (hnever : lib.NeverFails) : ErrorsExplained lib actions ↔
    StepsMeet lib (fun b s => readsStale lib b s = false) start actions := by
  refine ⟨fun h => ?_, errors_explained (stepsMeet_of_forall hnever.keepsCodes _ _)⟩
  refine along_iff.mpr fun pre a post hsplit => ?_
  match a with
  | .tokio _ | .elapse _ => trivial
  | .io s =>
    intro hr
    by_contra hstale
    rw [Bool.not_eq_false] at hstale
    obtain ⟨r, j, es, ht, hin⟩ := stale_reports hstale
    have hend : .answered r (.done (.error (lib.lastSrtError (start.run lib pre).step j))) ∈
        (start.run lib actions).trace := by
      rw [hsplit, run, List.foldl_append]
      refine recorded_kept ?_ post
      rw [trace_act hr]
      exact ht ▸ List.mem_append_right _ hin
    have hzero : lib.lastSrtError (start.run lib pre).step j = .success := by
      unfold Libsrt.lastSrtError
      rw [hnever.getlasterror]
      rfl
    exact (h _ hend r _ rfl).1 hzero

end NeverFails

/-- A handshake that ends after its call has returned: no call fails, and the connect is told that
it has failed with success. -/
theorem success_reported :
    let lib := Libsrt.succeeding fun k => if k < 2 then .opened else if k = 2 then .connecting else .broken
    let iterations := connectIterations ⟨false, true, false, true⟩
    Iterates lib start (fun _ _ _ => True) iterations ∧ lib.NeverFails ∧
      StepsMeet lib (KeepsCodes lib) start iterations.flatten ∧ ¬ErrorsExplained lib iterations.flatten := by
  intro lib iterations
  have hnever : lib.NeverFails := Libsrt.neverFails_succeeding _
  have hall : StepsMeet lib (fun _ _ => True) start iterations.flatten :=
    stepsMeet_of_forall (fun _ _ => trivial) _ _
  refine ⟨connectIterations_iterates hall (by decide) (by decide) (by decide) (by decide), hnever,
    stepsMeet_of_forall hnever.keepsCodes _ _, fun hexp => ?_⟩
  have hin : ∃ x ∈ (start.run lib iterations.flatten).trace, x.failure = some (1, .success) := by decide
  obtain ⟨x, hx, hf⟩ := hin
  exact (hexp x hx 1 .success hf).1 rfl

end Bridge

end SrtBridge
