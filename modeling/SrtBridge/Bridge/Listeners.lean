import SrtBridge.Bridge.Runs

/-! Listeners. The access-control hook of a listener is armed before it listens, and the
slot libsrt was given stays with its entry until the socket is closed. The accept channel
of a dead listener is let go of by nothing but its close. -/

namespace SrtBridge

open General

structure HandshakeInfo where
  peerAddr : SocketAddr
  streamId : Text
  isEncrypted : Bool
  peerSocketId : UInt32
  peerVersion : ℤ

/-- `on_accept`: its result, or that it panicked. -/
abbrev AccessControl (ρ : Type) := HandshakeInfo → Except Unit (Except ρ Unit)

/-- The handshake as the hook tells it; `peeraddr` and `streamid` are absent when libsrt's
pointer is null or the address is of no known family. -/
def handshakeInfo (hsVersion : ℤ) (peeraddr : Option SocketAddr) (streamid : Option Text) :
    HandshakeInfo where
  peerAddr := peeraddr.getD (.v4 0 0)
  streamId := streamid.getD []
  isEncrypted := false
  peerSocketId := 0
  peerVersion := hsVersion

/-- `listen_callback_trampoline`; `slots` says what each slot's address leads to. -/
def listenCallbackTrampoline {ρ : Type} (slots : ℕ → AccessControl ρ) (slot : Option ℕ)
    (hsVersion : ℤ) (peeraddr : Option SocketAddr) (streamid : Option Text) : ℤ :=
  match slot with
  | none => 0
  | some n =>
    match slots n (handshakeInfo hsVersion peeraddr streamid) with
    | .ok (.ok ()) => 0
    | .ok (.error _) => -1
    | .error () => -1

/-- The hook accepts exactly the callers `on_accept` returns `Ok` for. -/
theorem listenCallbackTrampoline_accepts {ρ : Type} (slots : ℕ → AccessControl ρ) (n : ℕ)
    (hsVersion : ℤ) (peeraddr : Option SocketAddr) (streamid : Option Text) :
    listenCallbackTrampoline slots (some n) hsVersion peeraddr streamid = 0 ↔
      slots n (handshakeInfo hsVersion peeraddr streamid) = .ok (.ok ()) := by
  unfold listenCallbackTrampoline
  dsimp only
  rcases hs : slots n (handshakeInfo hsVersion peeraddr streamid) with _ | (_ | _) <;> simp

/-- The slot whose address libsrt holds for `id`. -/
def heldSlot (id : SocketId) (tr : List IoEvent) : Option ℕ :=
  tr.foldl (fun held x =>
    match x with
    | .armed i slot true => if i = id then some slot else held
    | .closed i => if i = id then none else held
    | _ => held) none

section Held

variable {id : SocketId} {tr es : List IoEvent}

theorem heldSlot_snoc (x : IoEvent) : heldSlot id (tr ++ [x]) =
    match x with
    | .armed i slot true => if i = id then some slot else heldSlot id tr
    | .closed i => if i = id then none else heldSlot id tr
    | _ => heldSlot id tr := by
  simp [heldSlot, List.foldl_append]

theorem heldSlot_append {slot : ℕ} (hes : ∀ x ∈ es, ∀ i slot, x ≠ .armed i slot true)
    (h : heldSlot id (tr ++ es) = some slot) : heldSlot id tr = some slot := by
  induction es using List.reverseRecOn with
  | nil => simpa using h
  | append_singleton es x ih =>
    rw [← List.append_assoc, heldSlot_snoc] at h
    refine ih (fun y hy => hes y (by simp [hy])) ?_
    split at h
    · rename_i _ i slot'
      exact absurd rfl (hes (.armed i slot' true) (by simp) i slot')
    · split_ifs at h
      exact h
    · exact h

end Held

namespace Bridge

section Slots

variable {lib : Libsrt} {b : Bridge} {id : SocketId} {tr : List IoEvent}

/-- What a run keeps of the slots: the one libsrt holds is in the entry, and an entry is let
go of only when libsrt holds none of its slots. -/
structure SlotKept (id : SocketId) (e : Option SocketState) (tr : List IoEvent) : Prop where
  kept : ∀ slot, heldSlot id tr = some slot → e.bind SocketState.accessControl = some slot
  freed : ∀ pre, pre ++ [.released id] <+: tr → heldSlot id pre = none

theorem SlotKept.snoc {e e' : Option SocketState} {x : IoEvent} (h : SlotKept id e tr)
    (hx : x ≠ .released id)
    (hk : ∀ slot, heldSlot id (tr ++ [x]) = some slot → e'.bind SocketState.accessControl = some slot) :
    SlotKept id e' (tr ++ [x]) := by
  refine ⟨hk, fun pre hpre => ?_⟩
  rcases List.prefix_concat_iff.mp hpre with heq | hpre
  · exact absurd (List.singleton_inj.mp (List.append_inj' heq rfl).2).symm hx
  · exact h.freed pre hpre

/-- Events that arm nothing and do not let go of the entry. -/
theorem SlotKept.extend {e e' : Option SocketState} {es : List IoEvent} (h : SlotKept id e tr)
    (hes : ∀ x ∈ es, (x.isPlain = true ∨ x.isReply = true) ∨ x.isNote = false)
    (hrel : .released id ∉ es)
    (hk : ∀ slot, e.bind SocketState.accessControl = some slot →
      heldSlot id tr = some slot → e'.bind SocketState.accessControl = some slot) :
    SlotKept id e' (tr ++ es) := by
  have harm : ∀ x ∈ es, ∀ i slot, x ≠ .armed i slot true := by
    rintro x hx i slot rfl
    simpa [IoEvent.isPlain, IoEvent.isReply, IoEvent.isNote] using hes _ hx
  refine ⟨fun slot hslot => ?_, fun pre hpre => ?_⟩
  · have hheld := heldSlot_append harm hslot
    exact hk slot (h.kept slot hheld) hheld
  · induction es using List.reverseRecOn with
    | nil => exact h.freed pre (by simpa using hpre)
    | append_singleton es x ih =>
      rw [← List.append_assoc] at hpre
      rcases List.prefix_concat_iff.mp hpre with heq | hpre
      · have hx : IoEvent.released id = x := List.singleton_inj.mp (List.append_inj' heq rfl).2
        exact absurd (by simp [hx]) hrel
      · exact ih (fun y hy => hes y (by simp [hy])) (fun hmem => hrel (by simp [hmem]))
          (fun y hy => harm y (by simp [hy])) hpre

theorem SlotKept.close {e : SocketState} {pre post : List IoEvent} (h : SlotKept id (some e) tr)
    (hpre : ∀ x ∈ pre, x.isPlain = true) (hpost : ∀ x ∈ post, x.isReply = true) :
    SlotKept id none (tr ++ (pre ++ .closed id :: .released id :: post)) := by
  have hrel {es : List IoEvent} (hes : ∀ x ∈ es, x.isPlain = true ∨ x.isReply = true) :
      IoEvent.released id ∉ es := fun hmem => by
    simpa [IoEvent.isPlain, IoEvent.isReply] using hes _ hmem
  have hopen : SlotKept id (some e) (tr ++ pre) :=
    h.extend (fun x hx => .inl (.inl (hpre x hx))) (hrel fun x hx => .inl (hpre x hx)) fun _ h _ => h
  have hnone : heldSlot id (tr ++ pre ++ [IoEvent.closed id]) = none := by
    rw [heldSlot_snoc]
    exact if_pos rfl
  have hclosed : SlotKept id none (tr ++ pre ++ [IoEvent.closed id]) :=
    hopen.snoc (by simp) fun slot hslot => by rw [hnone] at hslot; cases hslot
  have hreleased : SlotKept id none (tr ++ pre ++ [IoEvent.closed id] ++ [IoEvent.released id]) := by
    refine ⟨fun slot hslot => ?_, fun pre' hpre' => ?_⟩
    · rw [heldSlot_snoc, hnone] at hslot
      cases hslot
    · rcases List.prefix_concat_iff.mp hpre' with heq | hpre'
      · rw [(List.append_inj' heq rfl).1]
        exact hnone
      · exact hclosed.freed pre' hpre'
  have hall : SlotKept id none (tr ++ pre ++ [IoEvent.closed id] ++ [IoEvent.released id] ++ post) :=
    hreleased.extend (fun x hx => .inl (.inr (hpost x hx))) (hrel fun x hx => .inr (hpost x hx))
      fun _ h _ => h
  simpa using hall

/-- The step does not change the slot of an entry that has one: the listener of `id` is not
registered again, and a new group is not given an id that is in the map. -/
def keepsSlot (lib : Libsrt) (b : Bridge) (id : SocketId) : IoStep → Bool
  | .command (.registerListener i _ a) => !(i = id && a.isSome && (b.accessSlot id).isSome)
  | .command (.createGroup mode _ _) => !(lib.createGroup b.step mode = id && (b.entry id).isSome)
  | _ => true

theorem slotKept_keeps (id : SocketId) :
    KeepsEntry lib (fun b s => keepsSlot lib b id s = true) id (SlotKept id) where
  note := by
    intro b₀ s e tr x _ hx h
    refine h.snoc ?_ fun slot hslot => ?_
    · rintro rfl
      simpa [IoEvent.isNote, IoEvent.subject] using hx.aside
    rw [heldSlot_snoc] at hslot
    split at hslot
    · split_ifs at hslot with hi
      · obtain rfl := Option.some.inj hslot
        exact hx.arm _ _ (by rw [hi])
      · exact h.kept slot hslot
    · split_ifs at hslot
      exact h.kept slot hslot
    · exact h.kept slot hslot
  backlog := by
    intro e tr l h
    exact ⟨h.kept, h.freed⟩
  change := by
    intro b₀ s e new es tr hok _ _ hch h
    have hev := hch.events
    have hes : ∀ x ∈ es, (x.isPlain = true ∨ x.isReply = true) ∨ x.isNote = false :=
      fun x hx => (hev x hx).imp_right And.left
    cases hch with
    | enter hent =>
      refine h.extend hes (by simp) fun slot hslot _ => ?_
      cases hent with
      | socket | listener => cases hslot
      | group hs hid h₀ =>
        subst h₀
        cases he : b₀.entry id with
        | none =>
          rw [he] at hslot
          cases hslot
        | some e => simp [keepsSlot, hs, hid, he] at hok
    | provide hs h₀ =>
      rename_i e c a
      refine h.extend hes (by simp) fun slot hslot _ => ?_
      cases a with
      | none => simpa using hslot
      | some a =>
        cases he : b₀.entry id with
        | none =>
          rw [h₀, he] at hslot
          cases hslot
        | some e₁ =>
          rw [h₀, he] at hslot
          have hslot : e₁.accessControl = some slot := hslot
          simp [keepsSlot, hs, accessSlot, he, hslot] at hok
    | close hpre hcl =>
      refine h.close hpre ?_
      cases hcl <;> cases ‹SocketState›.connectReply <;> simp [IoEvent.isReply]
    | register | fail => exact h.extend hes (by simp) fun slot hslot _ => hslot
    | record | listen | complete =>
      refine h.extend hes (by simp) fun slot hslot _ => ?_
      simpa using hslot
    | await =>
      refine h.extend hes ?_ fun slot hslot _ => ?_
      · cases ‹SocketState›.connectReply <;> simp
      · simpa using hslot
    | watch hm =>
      refine h.extend hes (fun hmem => ?_) fun slot hslot _ => hslot
      obtain ⟨m, hm⟩ := hm _ hmem
      cases hm

def Action.listener : Action → Option SocketId
  | .io (.command (.registerListener id _ _)) => some id
  | _ => none

/-- An entry whose listener was never registered has no slot. -/
theorem noSlot_keeps (lib : Libsrt) (id : SocketId) :
    KeepsEntry lib (fun _ s => ∀ c a, s ≠ .command (.registerListener id c a)) id
      fun e _ => e.bind SocketState.accessControl = none where
  note _ _ h := h
  backlog _ h := h
  change := by
    intro b₀ s e new es tr hok _ _ hch h
    cases hch with
    | enter hent => cases hent <;> rfl
    | provide hs => exact absurd hs (hok _ _)
    | close => rfl
    | register | fail | watch => exact h
    | record | listen | complete | await => simpa using h

/-- A run that does not register the listener of `id` gives its entry no slot. -/
theorem accessSlot_none (lib : Libsrt) {actions : List Action} (h : id ∉ actions.filterMap Action.listener) :
    (start.run lib actions).accessSlot id = none := by
  refine (noSlot_keeps lib id).run (along_iff.mpr fun pre a post hcut => ?_) rfl
  match a with
  | .tokio _ | .elapse _ => trivial
  | .io s =>
    rintro - c ac rfl
    refine h (List.mem_filterMap.mpr ⟨.io (.command (.registerListener id c ac)), ?_, rfl⟩)
    rw [hcut]
    simp

/-- With each listener registered once, no step changes a slot in place. -/
theorem keepsSlot_of_registered_once {actions : List Action}
    (hreg : (actions.filterMap Action.listener).Nodup)
    (hfresh : StepsMeet lib (fun b s => groupFresh lib b s = true) start actions) (id : SocketId) :
    StepsMeet lib (fun b s => keepsSlot lib b id s = true) start actions := by
  have hfresh := along_iff.mp hfresh
  refine along_iff.mpr fun pre a post hcut => ?_
  match a with
  | .tokio _ | .elapse _ => trivial
  | .io s =>
    intro hrun
    unfold keepsSlot
    split
    · rename_i i c a
      by_cases hi : i = id
      · -- it is the first to register this listener
        subst hi
        rw [hcut, List.filterMap_append, List.nodup_append] at hreg
        have hnew : i ∉ pre.filterMap Action.listener := fun hmem =>
          hreg.2.2 i hmem i (by simp [Action.listener]) rfl
        have hnone := accessSlot_none lib hnew
        unfold run at hnone
        simp [hnone]
      · simp [hi]
    · rename_i mode config reply
      have hnone : groupFresh lib (pre.foldl (act lib) start)
          (.command (.createGroup mode config reply)) = true := hfresh pre _ post hcut hrun
      simp only [groupFresh, Option.isNone_iff_eq_none] at hnone
      by_cases hi : lib.createGroup (pre.foldl (act lib) start).step mode = id
      · rw [hi] at hnone
        simp [hnone]
      · simp [hi]
    · rfl

section Listen

variable {slot : ℕ}

/-- A hook that libsrt refuses: `srt_listen` is not called, the socket is closed, its entry is
gone and the answer is an error. -/
theorem listen_refused (backlog : ℤ) (reply : ReplyId) (hslot : b.accessSlot id = some slot)
    (hno : lib.listenCallback b.step id slot < 0) :
    (b.listen lib id backlog reply).entry id = none ∧
      ∃ es err, (b.listen lib id backlog reply).trace =
          b.trace ++ (es ++ [IoEvent.answered reply (.done (.error err))]) ∧
        .closed id ∈ es ∧ ∀ i ok, .listening i ok ∉ es := by
  obtain ⟨e, he, hs⟩ := Option.bind_eq_some_iff.mp hslot
  unfold listen
  rcases registerListenCallback_cases lib b id with
    ⟨hn, heq⟩ | ⟨slot', hn, hok, heq⟩ | ⟨slot', err, hn, hok, heq⟩
  · rw [hn] at hslot
    cases hslot
  · rw [hn] at hslot
    obtain rfl := Option.some.inj hslot
    omega
  · rw [heq]
    dsimp only
    have he' : (b.emit (.armed id slot' false)).entry id = some e := he
    have hplain := unsubscribe_plain (b.emit (.armed id slot' false)) id
    have hlisten : ∀ i ok, .listening i ok ∉ (b.emit (.armed id slot' false)).unsubscribe id :=
      fun i ok hmem => by simpa [IoEvent.isPlain] using hplain _ hmem
    refine ⟨by simp [entry_closeAndDrop], IoEvent.armed id slot' false ::
      ((b.emit (.armed id slot' false)).unsubscribe id ++ IoEvent.closed id :: IoEvent.released id ::
        (e.connectReply.map IoEvent.unanswered).toList), err, ?_, by simp, fun i ok => ?_⟩
    · rw [trace_answer, trace_closeAndDrop he', trace_emit]
      simp only [List.append_assoc, List.cons_append, List.nil_append]
    · cases e.connectReply <;> simpa using hlisten i ok

/-- A hook that libsrt takes comes before anything else. -/
theorem listen_armed (backlog : ℤ) (reply : ReplyId) (hslot : b.accessSlot id = some slot)
    (hok : 0 ≤ lib.listenCallback b.step id slot) :
    ∃ es, (b.listen lib id backlog reply).trace = b.trace ++ IoEvent.armed id slot true :: es := by
  rcases registerListenCallback_cases lib b id with
    ⟨hn, heq⟩ | ⟨slot', hn, hok', heq⟩ | ⟨slot', err, hn, hno, heq⟩
  · rw [hn] at hslot
    cases hslot
  · rw [hn] at hslot
    obtain rfl := Option.some.inj hslot
    rw [listen_eq backlog reply heq]
    have harm : ∀ slot, b.accessSlot id = some slot → 0 ≤ lib.listenCallback b.step id slot := by
      intro slot h
      rw [hn] at h
      obtain rfl := Option.some.inj h
      exact hok
    obtain ⟨es, ht, -⟩ :=
      (listenOn_moves (c := b.emit (.armed id slot' true)) backlog reply rfl harm rfl).trace
    exact ⟨es, by rw [ht]; simp⟩
  · rw [hn] at hslot
    obtain rfl := Option.some.inj hslot
    omega

/-- Whatever step the thread takes, `srt_listen` is called on a listener that has a slot only
after libsrt took that slot. -/
theorem armed_of_listening (hslot : b.accessSlot id = some slot) (s : IoStep) {mid : List IoEvent}
    {ok : Bool} (h : b.trace ++ (mid ++ [IoEvent.listening id ok]) <+: (b.ioStep lib s).trace) :
    .armed id slot true ∈ mid := by
  obtain ⟨es, ht, hes⟩ := (ioStep_moves lib b s).trace
  have hmem : .listening id ok ∈ es := by
    rw [ht, List.prefix_append_right_inj] at h
    exact h.subset (by simp)
  obtain ⟨backlog, reply, rfl⟩ := hes id ok hmem
  change _ <+: (b.listen lib id backlog reply).trace at h
  rcases lt_or_ge (lib.listenCallback b.step id slot) 0 with hno | hok
  · obtain ⟨-, es', err, ht', -, hlisten⟩ := listen_refused backlog reply hslot hno
    rw [ht', List.prefix_append_right_inj] at h
    have hin := h.subset (List.mem_append_right _ (List.mem_singleton_self _))
    rcases List.mem_append.mp hin with hin | hin
    · exact absurd hin (hlisten id ok)
    · simp at hin
  · obtain ⟨es', ht'⟩ := listen_armed backlog reply hslot hok
    rw [ht', List.prefix_append_right_inj] at h
    cases mid with
    | nil =>
      obtain ⟨t, ht⟩ := h
      simp at ht
    | cons x mid =>
      obtain ⟨t, ht⟩ := h
      simp only [List.cons_append, List.cons.injEq] at ht
      simp [ht.1]

end Listen

/-- The access control of every listener, in every run that registers each listener once: it
is armed before the socket listens, or the socket is closed; the slot libsrt holds is that of
the entry, which is let go of only after libsrt has closed the socket; and the hook accepts
the callers `on_accept` accepts. -/
theorem access_control_kept (lib : Libsrt) (actions : List Action)
    (hreg : (actions.filterMap Action.listener).Nodup)
    (hfresh : StepsMeet lib (fun b s => groupFresh lib b s = true) start actions) :
    let b := start.run lib actions
    (∀ id slot, b.accessSlot id = some slot →
      (∀ s mid ok, b.trace ++ (mid ++ [.listening id ok]) <+: (b.ioStep lib s).trace →
        .armed id slot true ∈ mid) ∧
      ∀ backlog reply, lib.listenCallback b.step id slot < 0 →
        let b' := b.ioStep lib (.command (.listen id backlog reply))
        b'.entry id = none ∧ ∃ es err,
          b'.trace = b.trace ++ (es ++ [.answered reply (.done (.error err))]) ∧
            .closed id ∈ es ∧ ∀ i ok, .listening i ok ∉ es) ∧
    (∀ id, SlotKept id (b.entry id) b.trace) ∧
    ∀ (ρ : Type) (slots : ℕ → AccessControl ρ) (slot : ℕ) (hsVersion : ℤ)
      (peeraddr : Option SocketAddr) (streamid : Option Text),
      listenCallbackTrampoline slots (some slot) hsVersion peeraddr streamid = 0 ↔
        slots slot (handshakeInfo hsVersion peeraddr streamid) = .ok (.ok ()) := by
  refine ⟨fun id slot hslot => ⟨fun s mid ok => armed_of_listening hslot s,
    fun backlog reply => listen_refused backlog reply hslot⟩, fun id => ?_,
    fun ρ slots slot => listenCallbackTrampoline_accepts slots slot⟩
  have hstart : SlotKept id (start.entry id) start.trace :=
    ⟨by simp [heldSlot, start], by simp [start]⟩
  exact (slotKept_keeps id).run (keepsSlot_of_registered_once hreg hfresh id) hstart

/-- A listener with an access control is registered and listens. -/
def openListener : List Action :=
  [.io (.command (.registerListener 7 1 (some 5))), .io (.command (.listen 7 16 0))]

theorem access_control_kept_open :
    let b := start.run (.reading fun _ => .listening) openListener
    heldSlot 7 b.trace = some 5 ∧ SlotKept 7 (b.entry 7) b.trace :=
  ⟨rfl, (access_control_kept _ openListener (by decide) (by decide)).2.1 7⟩

end Slots

section Accepts

variable {lib : Libsrt} {b : Bridge} {id : SocketId}

theorem acceptTx_keeps (tr₀ : List IoEvent) :
    KeepsEntry lib (fun _ _ => True) id (Since id tr₀ fun e => e.acceptTx ≠ none) := by
  refine since_keeps tr₀ (fun _ _ h => h) fun {b₀ s e e' es} _ hch hlife h => ?_
  cases hch with
  | enter => simpa [IoEvent.turns] using hlife (.entered id)
  | provide => simp
  | register | fail | watch => exact h
  | record | listen | complete | await => simpa using h

theorem entry_cleanup {e : SocketState} (he : b.entry id = some e) (hl : e.isListener = true) :
    b.cleanupZombies.entry id = some e := by
  have hzombie : id ∉ b.zombies := by
    intro hz
    obtain ⟨e', he', hz⟩ := mem_zombies.mp hz
    obtain rfl := Option.some.inj (he.symm.trans he')
    simp [isZombie, hl] at hz
  rw [entry_cleanupZombies, if_neg hzombie, he]

variable (lib) in
/-- Whatever status is recorded for a registered listener, a terminal one included, its accept channel is
still in the bridge after the cleanup pass that follows, unless the listener has been closed. -/
theorem dead_listener_kept (b : Bridge) (id : SocketId) (acceptTx : ChannelId)
    (accessControl : Option ℕ) (actions : List Action) {e : SocketState} (hr : b.running = true) :
    let b₁ := b.act lib (.io (.command (.registerListener id acceptTx accessControl)))
    let b₂ := b₁.run lib actions
    (∀ x ∈ b₂.trace.drop b₁.trace.length, x.turns id = false) → b₂.entry id = some e →
      e.isListener = true → (b₂.ioStep lib .cleanup).entry id = some e ∧ e.acceptTx ≠ none := by
  intro b₁ b₂ hlife he hl
  have hfirst : ∃ e₁, b₁.entry id = some e₁ ∧ e₁.acceptTx ≠ none := by
    refine ⟨{ (b.entry id).getD .freshListener with
      acceptTx := some acceptTx
      accessControl := accessControl.or ((b.entry id).getD .freshListener).accessControl }, ?_, by simp⟩
    rw [entry_act hr]
    show (b.registerListener id acceptTx accessControl).entry id = _
    unfold registerListener
    rw [entry_modify, if_pos rfl, entry_enterIfAbsent]
    rfl
  obtain ⟨e₁, he₁, hacc⟩ := hfirst
  refine ⟨entry_cleanup he hl, ?_⟩
  rcases Since.run (acceptTx_keeps b₁.trace) (stepsMeet_of_forall (fun _ _ => trivial) _ _) he₁ hacc with
    ⟨x, hx, hturn⟩ | ⟨e', he', hacc'⟩
  · rw [hlife x hx] at hturn
    cases hturn
  · obtain rfl := Option.some.inj (he.symm.trans he')
    exact hacc'

end Accepts

/-- A listener without an access control listens, and then its socket reports an error. -/
def breakListener : List Action :=
  [.io (.command (.listen 7 16 0)), .io (.event 7 ⟨false, false, true, false⟩)]

theorem dead_listener_kept_broken :
    let b := (start.act (.reading fun _ => .listening) (.io (.command (.registerListener 7 1 none)))).run
      (.reading fun _ => .listening) breakListener
    ∃ e, b.entry 7 = some e ∧ isTerminalStatus e.lastStatus = true ∧
      ((b.ioStep (.reading fun _ => .listening) .cleanup).entry 7 = some e ∧ e.acceptTx ≠ none) :=
  ⟨_, rfl, rfl, dead_listener_kept (.reading fun _ => .listening) start 7 1 none breakListener rfl
    (by decide) rfl rfl⟩

/-- The listener is recorded dead and cleaned up after, and still holds its accept channel, on
which nobody else can send. -/
theorem listener_waits :
    let lib := Libsrt.reading fun _ => .listening
    let b := (start.act lib (.io (.command (.registerListener 7 1 none)))).run lib
      (breakListener ++ [.io .cleanup])
    (b.entry 7).map SocketState.lastStatus = some .broken ∧
      ((b.entry 7).bind SocketState.acceptTx) = some 1 ∧ (b.accepts 1).closed = false :=
  ⟨rfl, rfl, rfl⟩

end Bridge

end SrtBridge
