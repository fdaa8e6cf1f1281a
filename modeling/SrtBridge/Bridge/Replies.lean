import SrtBridge.Bridge.Shutdown

/-! The account of the oneshots: every reply that a command brings is settled once, at the
latest when the thread shuts down, and until then waits on one entry. -/

namespace SrtBridge

open General

/-- The place where the oneshot of a command may wait. -/
def IoCommand.waitsAt : IoCommand → Option SocketId
  | .connect id _ _ => some id
  | _ => none

namespace Bridge

/-- The group that the step creates, if any, has no entry yet. -/
def namesFreshGroup (lib : Libsrt) (b : Bridge) : IoStep → Bool
  | .command (.createGroup mode _ _) =>
    let grp := lib.createGroup b.step mode
    grp < 0 || (b.entry grp).isNone
  | _ => true

/-- The oneshot `r` is settled, or waits on the entry of `place`: `n` in all. -/
structure Accounted (r : ReplyId) (place : Option SocketId) (n : ℕ) (b : Bridge) : Prop where
  waits : ∀ i, b.connectReply i = some r → place = some i
  total : b.trace.countP (IoEvent.settles r) + (decide (place.bind b.connectReply = some r)).toNat = n

section Account

variable {lib : Libsrt} {b b' : Bridge} {r : ReplyId} {place : Option SocketId} {n : ℕ}
  {es : List IoEvent}

theorem Accounted.keep (h : Accounted r place n b) (hes : es.countP (IoEvent.settles r) = 0)
    (hw : ∀ i, b'.connectReply i = some r ↔ b.connectReply i = some r)
    (ht : b'.trace = b.trace ++ es) : Accounted r place n b' where
  waits i hi := h.waits i ((hw i).mp hi)
  total := by
    have hplace : place.bind b'.connectReply = some r ↔ place.bind b.connectReply = some r := by
      cases place with
      | none => simp
      | some i => exact hw i
    rw [ht, List.countP_append, hes, decide_eq_decide.mpr hplace]
    exact h.total

theorem Accounted.settle {i : SocketId} (h : Accounted r place n b) (hi : b.connectReply i = some r)
    (hes : es.countP (IoEvent.settles r) = 1) (hnone : b'.connectReply i ≠ some r)
    (hother : ∀ i', i' ≠ i → b'.connectReply i' = b.connectReply i') (ht : b'.trace = b.trace ++ es) :
    Accounted r place n b' := by
  have hplace := h.waits i hi
  subst hplace
  have hgone (i' : SocketId) : b'.connectReply i' ≠ some r := by
    intro hi'
    by_cases hne : i' = i
    · exact hnone (hne ▸ hi')
    · rw [hother i' hne] at hi'
      exact hne (Option.some.inj (h.waits i' hi')).symm
  refine ⟨fun i' hi' => absurd hi' (hgone i'), ?_⟩
  have htotal := h.total
  rw [Option.bind_some, decide_eq_true hi, Bool.toNat_true] at htotal
  rw [ht, List.countP_append, hes, Option.bind_some, decide_eq_false (hgone i), Bool.toNat_false]
  exact htotal

theorem countP_settles_plain (h : ∀ x ∈ es, x.isPlain = true) : es.countP (IoEvent.settles r) = 0 := by
  rw [List.countP_eq_zero]
  intro x hx
  have hp := h x hx
  cases x with
  | answered | unanswered => cases hp
  | _ => exact Bool.false_ne_true

/-- A change settles the oneshot that waits on its entry and will not wait there any more, and no
other. -/
theorem Change.settles {s : IoStep} {k : ℕ} {e₀ e new : Option SocketState} {i : SocketId}
    (h : Change lib s k e₀ i e new es) (hs : ∀ cmd, s = .command cmd → cmd.reply ≠ some r)
    (hfresh : ∀ mode config reply, s = .command (.createGroup mode config reply) →
      lib.createGroup k mode = i → 0 ≤ i → e₀ = none) :
    (es.countP (IoEvent.settles r) = 0 ∧
        (new.bind SocketState.connectReply = some r ↔ e.bind SocketState.connectReply = some r)) ∨
      e.bind SocketState.connectReply = some r ∧ new.bind SocketState.connectReply ≠ some r ∧
        es.countP (IoEvent.settles r) = 1 := by
  cases h with
  | enter he =>
    have hnone : e = none := by
      cases he with
      | socket | listener => rfl
      | group hs' hid h₀ hpos => exact h₀.trans (hfresh _ _ _ hs' hid hpos)
    subst hnone
    refine .inl ⟨by simp [IoEvent.settles], ?_⟩
    cases he <;> simp [SocketState.fresh, SocketState.freshListener, SocketState.freshGroup]
  | register | provide => exact .inl ⟨by simp [IoEvent.settles], Iff.rfl⟩
  | record | listen => exact .inl ⟨by simp [IoEvent.settles], by simp⟩
  | await hs' =>
    rename_i e addr reply _ _ _
    have hreply : reply ≠ r := fun h => hs _ hs' (congrArg some h)
    cases hr : e.connectReply with
    | none => exact .inl ⟨by simp [IoEvent.settles], by simp [hr, hreply]⟩
    | some earlier =>
      by_cases hearlier : earlier = r
      · exact .inr ⟨by simp [hr, hearlier], by simp [hreply], by simp [IoEvent.settles, hearlier]⟩
      · exact .inl ⟨by simp [IoEvent.settles, hearlier], by simp [hr, hreply, hearlier]⟩
  | complete hs' hf hi h₀ hr =>
    rename_i e flags reply result q _
    by_cases hreply : reply = r
    · exact .inr ⟨hreply ▸ hr, by simp, by simp [IoEvent.settles, hreply]⟩
    · exact .inl ⟨by simp [IoEvent.settles, hreply], by simp [hr, hreply]⟩
  | fail hs' hr =>
    rename_i e reply err _
    by_cases hreply : reply = r
    · exact .inr ⟨hreply ▸ hr, by simp, by simp [IoEvent.settles, hreply]⟩
    · exact .inl ⟨by simp [IoEvent.settles, hreply], by simp [hr, hreply]⟩
  | watch hes =>
    refine .inl ⟨?_, Iff.rfl⟩
    rw [List.countP_eq_zero]
    intro x hx
    obtain ⟨m, rfl⟩ := hes x hx
    simp [IoEvent.settles]
  | close hpre hcl =>
    rename_i e pre post
    have hcount : (pre ++ .closed i :: .released i :: post).countP (IoEvent.settles r) =
        post.countP (IoEvent.settles r) := by
      rw [List.countP_append, countP_settles_plain hpre, Nat.zero_add]
      simp [IoEvent.settles]
    rw [hcount]
    cases hr : e.connectReply with
    | none =>
      refine .inl ⟨?_, by simp [hr]⟩
      cases hcl <;> simp [hr]
    | some reply =>
      by_cases hreply : reply = r
      · refine .inr ⟨hreply ▸ hr, by simp, ?_⟩
        cases hcl <;> simp [hr, hreply, IoEvent.settles]
      · refine .inl ⟨?_, by simp [hr, hreply]⟩
        cases hcl <;> simp [hr, hreply, IoEvent.settles]

/-- Nothing but the command that brings a oneshot makes it one that is to be settled. -/
theorem accounted_keeps : Keeps lib
    (fun b s => (∀ cmd, s = .command cmd → cmd.reply ≠ some r) ∧ namesFreshGroup lib b s = true)
      (Accounted r place n) where
  moved := by
    intro b₀ s b b' hok _ _ hm h
    have hsame (he : ∀ i, b'.entry i = b.entry i) (i : SocketId) :
        b'.connectReply i = some r ↔ b.connectReply i = some r := by
      unfold connectReply
      rw [he]
    cases hm with
    | note hes he ht => exact h.keep (countP_settles_plain hes) (hsame he) ht
    | answer hs hr hx =>
      refine h.keep ?_ (hsame fun _ => rfl) rfl
      have hne := hok.1 _ hs
      rw [hr, ne_eq, Option.some.injEq] at hne
      rcases hx with rfl | ⟨a, rfl⟩ <;> simp [IoEvent.settles, hne]
    | arm | subscribe | listening | accepted =>
      exact h.keep (by simp [IoEvent.settles]) (hsame fun _ => rfl) rfl
    | change hch he ht hc =>
      rename_i i new es
      have hother (i' : SocketId) (hi : i' ≠ i) : b'.connectReply i' = b.connectReply i' := by
        unfold connectReply
        rw [he, if_neg hi]
      have hnew : b'.connectReply i = new.bind SocketState.connectReply := by
        unfold connectReply
        rw [he, if_pos rfl]
      have hfresh (mode config reply) (hs : s = .command (.createGroup mode config reply))
          (hid : lib.createGroup b₀.step mode = i) (hpos : 0 ≤ i) : b₀.entry i = none := by
        have hname := hok.2
        rw [hs, namesFreshGroup, hid] at hname
        simpa [not_lt.mpr hpos] using hname
      rcases hch.settles hok.1 hfresh with ⟨hes, hw⟩ | ⟨hr, hgone, hes⟩
      · refine h.keep hes (fun i' => ?_) ht
        by_cases hi : i' = i
        · subst hi
          rw [hnew]
          exact hw
        · rw [hother i' hi]
      · exact h.settle hr hes (hnew ▸ hgone) hother ht
    | take =>
      exact h.keep (by simp [IoEvent.settles]) (hsame fun _ => entry_deliver ..) (trace_deliver _)
    | send =>
      rename_i i _
      obtain ⟨es, ht, hes⟩ := trace_handleSend lib b i
      obtain ⟨l, hl⟩ := entry_handleSend lib b i
      refine h.keep ?_ (fun i' => ?_) ht
      · rw [List.countP_eq_zero]
        intro x hx
        obtain ⟨data, ok, rfl⟩ := hes x hx
        simp [IoEvent.settles]
      · unfold connectReply
        rw [hl]
        split_ifs with hi
        · subst hi
          rw [Option.bind_map]
          rfl
        · rfl
    | handOver => exact h.keep List.countP_nil (hsame fun _ => rfl) (List.append_nil _).symm
  tokio := by
    intro b t h
    cases t <;> exact ⟨h.waits, h.total⟩
  same := by
    intro b b' he ht _ h
    refine h.keep (List.countP_nil (p := IoEvent.settles r)) (fun i => ?_) (by rw [ht, List.append_nil])
    unfold connectReply
    rw [he]

end Account

section Unseen

variable {lib : Libsrt} {b b' : Bridge} {r : ReplyId} {id : SocketId} {es : List IoEvent}

abbrev Unseen (r : ReplyId) (b : Bridge) : Prop := Accounted r none 0 b

theorem unseen_iff : Unseen r b ↔
    (∀ i, b.connectReply i ≠ some r) ∧ b.trace.countP (IoEvent.settles r) = 0 := by
  constructor
  · intro h
    exact ⟨fun i hi => (by cases h.waits i hi), by simpa using h.total⟩
  · rintro ⟨hno, hzero⟩
    exact ⟨fun i hi => absurd hi (hno i), by simpa using hzero⟩

/-- A oneshot stays unknown as long as no entry is given it and it is not settled. -/
theorem Unseen.keep (h : Unseen r b) (hes : ∀ x ∈ es, x.settles r = false)
    (hw : ∀ i, b'.connectReply i = some r → b.connectReply i = some r)
    (ht : b'.trace = b.trace ++ es) : Unseen r b' := by
  obtain ⟨hno, hzero⟩ := unseen_iff.mp h
  refine unseen_iff.mpr ⟨fun i hi => hno i (hw i hi), ?_⟩
  rw [ht, List.countP_append, hzero, Nat.zero_add, List.countP_eq_zero]
  exact fun x hx => by simp [hes x hx]

theorem Unseen.emit (h : Unseen r b) {x : IoEvent} (hx : x.settles r = false) : Unseen r (b.emit x) :=
  h.keep (List.forall_mem_singleton.mpr hx) (fun _ hw => hw) rfl

theorem Unseen.setOptions (h : Unseen r b) (calls : List OptCall) :
    Unseen r (b.setOptions lib id calls) :=
  h.keep (List.forall_mem_map.mpr fun _ _ => rfl) (fun _ hw => hw) rfl

theorem Unseen.setEntry (h : Unseen r b) {s : SocketState}
    (hs : s.connectReply = some r → b.connectReply id = some r) : Unseen r (b.setEntry id s) := by
  have hnone : ∀ x ∈ ([] : List IoEvent), x.settles r = false := List.forall_mem_nil _
  refine h.keep hnone (fun i hi => ?_) (List.append_nil _).symm
  unfold connectReply at hi hs ⊢
  rw [entry_setEntry] at hi
  split_ifs at hi with hid
  · exact hid ▸ hs hi
  · exact hi

theorem Unseen.modify (h : Unseen r b) {f : SocketState → SocketState}
    (hf : ∀ s, (f s).connectReply = some r → s.connectReply = some r) : Unseen r (b.modify id f) := by
  cases he : b.entry id with
  | none =>
    rw [modify_none he]
    exact h
  | some e =>
    rw [modify_some he]
    refine h.setEntry fun hr => ?_
    rw [connectReply_some he]
    exact hf e hr

theorem Unseen.record (h : Unseen r b) (q : SocketStatus) : Unseen r (b.record id q) := by
  cases he : b.entry id with
  | none =>
    rw [record_none he]
    exact h
  | some e =>
    rw [record_some he]
    refine Unseen.emit (h.setEntry fun hr => ?_) rfl
    rw [connectReply_some he]
    simpa using hr

theorem Unseen.closeAndDrop (h : Unseen r b) : Unseen r (b.closeAndDrop id) := by
  have hno := (unseen_iff.mp h).1 id
  cases he : b.entry id with
  | none =>
    rw [Bridge.closeAndDrop, connectReply_none he]
    unfold closeAndRelease
    split_ifs
    · rw [release_none (by simpa using he)]
      exact h.emit rfl
    · rw [release_none (by simpa using he)]
      exact (h.emit rfl).emit rfl
  | some e =>
    rw [connectReply_some he] at hno
    refine h.keep (fun x hx => ?_) (fun i hi => ?_) (trace_closeAndDrop he)
    · simp only [List.mem_append, List.mem_cons] at hx
      rcases hx with hx | rfl | rfl | hx
      · have hp := unsubscribe_plain b id x hx
        cases x with
        | answered | unanswered => cases hp
        | _ => rfl
      · rfl
      · rfl
      · cases hr : e.connectReply with
        | none => simp [hr] at hx
        | some earlier =>
          obtain rfl : x = .unanswered earlier := by simpa [hr] using hx
          rw [hr] at hno
          simpa [IoEvent.settles] using hno
    · unfold connectReply at hi ⊢
      rw [entry_closeAndDrop] at hi
      split_ifs at hi
      · cases hi
      · exact hi

theorem Unseen.putGroup (h : Unseen r b) {g : GroupRun}
    (hg : g.entry.connectReply = some r → b.connectReply id = some r) : Unseen r (b.putGroup id g) := by
  have hset : Unseen r (b.setEntry id g.entry) := h.setEntry hg
  exact Unseen.keep hset (List.forall_mem_map.mpr fun _ _ => rfl) (fun _ hw => hw) rfl

theorem Unseen.answer (h : Unseen r b) (a : Reply) : Accounted r none 1 (b.answer r a) := by
  obtain ⟨hno, hzero⟩ := unseen_iff.mp h
  exact ⟨fun i hi => absurd hi (hno i), by simp [hzero, IoEvent.settles]⟩

theorem awaitConnect_accounted (id : SocketId) (h : Unseen r b) :
    Accounted r (some id) 1 (b.awaitConnect id r) := by
  obtain ⟨hno, hzero⟩ := unseen_iff.mp h
  unfold awaitConnect
  cases he : b.entry id with
  | none =>
    have hgone : (b.emit (.unanswered r)).connectReply id ≠ some r := hno id
    exact ⟨fun i hi => absurd hi (hno i), by simp [hzero, hgone, IoEvent.settles]⟩
  | some e =>
    have hgive {c : Bridge} (hc : Unseen r c) (hce : c.entry id = some e) :
        Accounted r (some id) 1
          ((c.modify id fun s => { s with connectReply := some r }).record id .connecting) := by
      obtain ⟨hno, hzero⟩ := unseen_iff.mp hc
      rw [modify_some hce, record_some (e := { e with connectReply := some r })
        (by rw [entry_setEntry, if_pos rfl])]
      have hother (i : SocketId) (hi : i ≠ id) (s s' : SocketState) :
          (((c.setEntry id s).setEntry id s').emit (.recorded id .connecting)).connectReply i =
            c.connectReply i := by
        simp [connectReply, entry_setEntry, hi]
      refine ⟨fun i hi => ?_, by simp [connectReply, entry_setEntry, hzero, IoEvent.settles]⟩
      by_contra hne
      rw [hother i (fun h => hne (h ▸ rfl))] at hi
      exact hno i hi
    dsimp only
    cases hr : e.connectReply with
    | none => exact hgive h he
    | some earlier =>
      have hearlier : earlier ≠ r := fun heq => hno id (by rw [connectReply_some he, hr, heq])
      exact hgive (h.emit (by simpa [IoEvent.settles] using hearlier)) he

theorem listen_accounted (lib : Libsrt) (id : SocketId) (backlog : ℤ) (h : Unseen r b) :
    Accounted r none 1 (b.listen lib id backlog r) := by
  have harm : Unseen r (b.registerListenCallback lib id).2 := by
    unfold registerListenCallback
    split
    · exact h
    · split_ifs
      · exact h.emit rfl
      · exact h.emit rfl
  unfold listen
  cases hc : b.registerListenCallback lib id with
  | mk result c =>
    rw [hc] at harm
    cases result with
    | error err => exact harm.closeAndDrop.answer _
    | ok =>
      dsimp only
      split_ifs
      · exact (harm.emit (x := .listening id false) rfl).closeAndDrop.answer _
      · have hlive := (harm.emit (x := .listening id true) rfl).emit (x := .subscribed id) rfl
        refine ((hlive.modify ?_).record _).answer _
        exact fun _ hs => hs

theorem connect_accounted (lib : Libsrt) (id : SocketId) (addr : SocketAddr) (h : Unseen r b) :
    Accounted r (some id) 1 (b.connect lib id addr r) := by
  have hnone {c : Bridge} (hc : Unseen r c) (a : Reply) : Accounted r (some id) 1 (c.answer r a) := by
    obtain ⟨hno, hzero⟩ := unseen_iff.mp hc
    have hgone : (c.answer r a).connectReply id ≠ some r := hno id
    exact ⟨fun i hi => absurd hi (hno i), by simp [hzero, hgone, IoEvent.settles]⟩
  have hfirst := h.emit (x := .connecting id) rfl
  have hsub := hfirst.emit (x := .subscribed id) rfl
  unfold connect
  dsimp only
  split_ifs
  · exact hnone hfirst _
  · split
    · exact hnone (hsub.record _) _
    · exact awaitConnect_accounted id hsub
    · exact awaitConnect_accounted id hsub
    · exact awaitConnect_accounted id hsub
    · exact hnone hfirst _

theorem createSocket_accounted (lib : Libsrt) (config : SrtConfig) (h : Unseen r b) :
    Accounted r none 1 (b.createSocket lib config r) := by
  unfold createSocket
  dsimp only
  split_ifs
  · exact h.answer _
  · exact (((h.emit rfl).setOptions _).setOptions _).answer _

theorem createGroup_accounted (lib : Libsrt) (mode : GroupType) (config : SrtConfig) (h : Unseen r b) :
    Accounted r none 1 (b.createGroup lib mode config r) := by
  unfold createGroup
  dsimp only
  split_ifs
  · exact h.answer _
  · exact (((((h.emit rfl).setOptions _).setOptions _).setEntry fun hs => (by cases hs)).emit rfl).answer _

theorem connectGroup_accounted (lib : Libsrt) (id : SocketId) (eps : List GroupEndpoint) (h : Unseen r b) :
    Accounted r none 1 (b.connectGroup lib id eps r) := by
  unfold connectGroup
  cases hr : (SrtBridge.connectGroup lib b.step 0 id eps).refused with
  | some err => exact h.answer _
  | none =>
    have hsub := h.emit (x := .subscribed id) rfl
    dsimp only
    cases he : (b.emit (.subscribed id)).entry id with
    | none => exact hsub.answer _
    | some e =>
      refine ((hsub.putGroup fun hs => ?_).emit rfl).answer _
      obtain ⟨ws, -, hent⟩ := ((b.emit (.subscribed id)).groupRun e).connect_leaves hr
      rw [hent] at hs
      rw [connectReply_some he]
      simpa [groupRun] using hs

theorem addGroupMember_accounted (lib : Libsrt) (id : SocketId) (ep : GroupEndpoint) (h : Unseen r b) :
    Accounted r none 1 (b.addGroupMember lib id ep r) := by
  unfold addGroupMember
  cases he : b.entry id with
  | none => exact h.answer _
  | some e =>
    refine (h.putGroup fun hs => ?_).answer _
    have hleaves : (b.groupRun e).Leaves ((b.groupRun e).addGroupMember lib id ep).2
        ((b.groupRun e).addGroupMember lib id ep).2.entry := GroupRun.addGroupMember_leaves ep
    rw [hleaves.rest] at hs
    rw [connectReply_some he]
    exact hs

/-- A command settles the oneshot it brings, or leaves it with the entry it is to connect. -/
theorem processCommand_accounted (lib : Libsrt) {cmd : IoCommand} (hcmd : cmd.reply = some r)
    (h : Unseen r b) : Accounted r cmd.waitsAt 1 (b.processCommand lib cmd) := by
  cases cmd with
  | registerSocket | registerListener | close | shutdown => cases hcmd
  | createSocket config =>
    obtain rfl := Option.some.inj hcmd
    exact createSocket_accounted lib config h
  | bind id addr =>
    obtain rfl := Option.some.inj hcmd
    have hbound (ok : Bool) := h.emit (x := .bound id ok) rfl
    simp only [processCommand, bindSocket]
    split_ifs
    · exact (hbound false).answer _
    · exact (hbound true).answer _
  | listen id backlog =>
    obtain rfl := Option.some.inj hcmd
    exact listen_accounted lib id backlog h
  | connect id addr =>
    obtain rfl := Option.some.inj hcmd
    exact connect_accounted lib id addr h
  | createGroup mode config =>
    obtain rfl := Option.some.inj hcmd
    exact createGroup_accounted lib mode config h
  | connectGroup id eps =>
    obtain rfl := Option.some.inj hcmd
    exact connectGroup_accounted lib id eps h
  | addGroupMember id ep =>
    obtain rfl := Option.some.inj hcmd
    exact addGroupMember_accounted lib id ep h
  | getStats | getState | getPeerAddr | getLocalAddr | getStreamId | getGroupMemberStats =>
    obtain rfl := Option.some.inj hcmd
    exact h.answer _

end Unseen

section Runs

variable {lib : Libsrt} {b : Bridge} {r : ReplyId} {place : Option SocketId} {n : ℕ} {actions : List Action}

theorem accounted_run (h : Accounted r place n b) (hr : r ∉ actions.filterMap Action.reply)
    (hfresh : StepsMeet lib (fun b s => namesFreshGroup lib b s = true) b actions) :
    Accounted r place n (b.run lib actions) := by
  have hother : StepsMeet lib (fun _ s => ∀ cmd, s = .command cmd → cmd.reply ≠ some r) b actions := by
    have hall : Along (act lib) (fun _ a => a.reply ≠ some r) b actions :=
      along_of_forall fun a ha hrep => hr (List.mem_filterMap.mpr ⟨a, ha, hrep⟩)
    refine hall.mono fun b a ha => ?_
    cases a with
    | io s =>
      intro _ cmd hs
      rw [hs] at ha
      exact ha
    | tokio | elapse => trivial
  exact accounted_keeps.run (hother.and hfresh) h

theorem Accounted.cases (h : Accounted r place 1 b) :
    b.trace.countP (IoEvent.settles r) = 1 ∧ (∀ i, b.connectReply i ≠ some r) ∨
      b.trace.countP (IoEvent.settles r) = 0 ∧ ∃ id, place = some id ∧
        ∀ i, b.connectReply i = some r ↔ i = id := by
  have htotal := h.total
  by_cases hw : place.bind b.connectReply = some r
  · obtain ⟨id, rfl, hid⟩ := Option.bind_eq_some_iff.mp hw
    rw [decide_eq_true hw, Bool.toNat_true] at htotal
    refine .inr ⟨by omega, id, rfl, fun i => ⟨fun hi => ?_, fun hi => hi ▸ hid⟩⟩
    exact (Option.some.inj (h.waits i hi)).symm
  · rw [decide_eq_false hw, Bool.toNat_false] at htotal
    refine .inl ⟨htotal, fun i hi => hw ?_⟩
    rw [h.waits i hi]
    exact hi

/-- In every run in which each command brings a oneshot of its own and libsrt gives a new group no id
that still has an entry: the oneshot of a command that was carried out has been settled exactly once,
and waits nowhere; or it has not been, and waits on the one entry that the command was to connect. Once
the thread has shut down, the map is empty, and every such oneshot has been settled. -/
theorem replies_settled (lib : Libsrt) (actions : List Action)
    (hnodup : (actions.filterMap Action.reply).Nodup)
    (hfresh : StepsMeet lib (fun b s => namesFreshGroup lib b s = true) start actions)
    (pre post : List Action) (cmd : IoCommand) (r : ReplyId)
    (hsplit : actions = pre ++ .io (.command cmd) :: post) (hcmd : cmd.reply = some r)
    (hr : (start.run lib pre).running = true) :
    let b := start.run lib actions
    (b.trace.countP (IoEvent.settles r) = 1 ∧ (∀ i, b.connectReply i ≠ some r) ∨
      b.trace.countP (IoEvent.settles r) = 0 ∧ ∃ id addr, cmd = .connect id addr r ∧
        ∀ i, b.connectReply i = some r ↔ i = id) ∧
      (b.running = false →
        b.trace.countP (IoEvent.settles r) = 1 ∧ ∀ i, b.entry i = none) := by
  intro b
  subst hsplit
  obtain ⟨hfresh₁, hrest⟩ := StepsMeet.append.mp hfresh
  rw [List.filterMap_append, List.filterMap_cons, show Action.reply (.io (.command cmd)) = some r from hcmd,
    List.nodup_append] at hnodup
  obtain ⟨-, hpost, hdisj⟩ := hnodup
  have hpre : r ∉ pre.filterMap Action.reply := fun hmem => hdisj r hmem r (List.mem_cons_self ..) rfl
  have hstart : Unseen r start := unseen_iff.mpr ⟨fun _ h => (by cases h), rfl⟩
  have hbefore : Unseen r (start.run lib pre) := accounted_run hstart hpre hfresh₁
  have hstep : Accounted r cmd.waitsAt 1 ((start.run lib pre).act lib (.io (.command cmd))) := by
    have hdone := processCommand_accounted lib hcmd hbefore
    rw [show (start.run lib pre).act lib (.io (.command cmd)) = _ from if_pos hr]
    exact ⟨hdone.waits, hdone.total⟩
  have hb : b = ((start.run lib pre).act lib (.io (.command cmd))).run lib post := List.foldl_append
  have hend : Accounted r cmd.waitsAt 1 b := by
    rw [hb]
    exact accounted_run hstep (List.nodup_cons.mp hpost).1 hrest.2
  have hcases : b.trace.countP (IoEvent.settles r) = 1 ∧ (∀ i, b.connectReply i ≠ some r) ∨
      b.trace.countP (IoEvent.settles r) = 0 ∧ ∃ id addr, cmd = .connect id addr r ∧
        ∀ i, b.connectReply i = some r ↔ i = id := by
    refine hend.cases.imp_right fun ⟨hzero, id, hplace, hwait⟩ => ⟨hzero, id, ?_⟩
    cases cmd with
    | connect id' addr reply =>
      obtain rfl := Option.some.inj hplace
      obtain rfl := Option.some.inj hcmd
      exact ⟨addr, rfl, hwait⟩
    | _ => cases hplace
  refine ⟨hcases, fun hhalt => ?_⟩
  have hempty : ∀ i, b.entry i = none := run_halted (fun h => (by cases h)) _ hhalt
  refine ⟨?_, hempty⟩
  rcases hcases with ⟨hone, -⟩ | ⟨-, id, addr, -, hwait⟩
  · exact hone
  · have hno : b.connectReply id = none := connectReply_none (hempty id)
    rw [(hwait id).mpr rfl] at hno
    cases hno

/-- A connect waits when the thread is shut down. -/
theorem replies_settled_shutdown :
    let lib := Libsrt.reading fun _ => .connecting
    (start.run lib [.io (.command (.registerSocket 7 1 2 3)),
      .io (.command (.connect 7 (.v4 0x7f000001 9000) 5)), .io (.command .shutdown)]).trace.countP
        (IoEvent.settles 5) = 1 := by
  intro lib
  exact ((replies_settled lib _ (by decide) (by decide) [_] [_] _ 5 rfl rfl (by decide)).2 (by decide)).1

end Runs

end Bridge

end SrtBridge
