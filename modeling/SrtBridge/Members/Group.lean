import SrtBridge.Members.Check
import SrtBridge.Bridge.Entry

/-! A caller group's run: the members `ConnectGroup` and `AddGroupMember` spawn,
and the checks that follow them up. -/

namespace SrtBridge

/-- A caller group's entry, the clock, the next step, and what the bridge has done
and seen. -/
structure GroupRun where
  entry : SocketState
  clock : Instant
  step : ℕ
  trace : List MemberEvent

/-- The endpoints of one connect call with the member spawned for each. -/
def spawnedMembers (endpoints : List GroupEndpoint) (members : List (Except SrtError SocketId)) :
    List (GroupEndpoint × SocketId) :=
  (endpoints.zip members).filterMap fun e => (okId e.2).map fun id => (e.1, id)

def spawnEvents (k : ℕ) (members : List (GroupEndpoint × SocketId)) : List MemberEvent :=
  members.map fun e => .spawn k e.2 e.1

def watchSpawned (lib : Libsrt) (k : ℕ) (now : Instant) (members : List (GroupEndpoint × SocketId)) :
    List WatchedMember :=
  members.map fun e => .spawned lib k e.2 e.1 now

/-- The live state of each watched member, read one after the other from step `k` on. -/
def readLive (lib : Libsrt) : ℕ → List WatchedMember → List WatchedMember
  | _, [] => []
  | k, w :: ws => { w with live := lib.status k 0 w.id } :: readLive lib (k + 1) ws

namespace GroupRun

/-- `ConnectGroup`, once the group is in the epoll; an error when libsrt refused it. -/
def connect (lib : Libsrt) (grp : SocketId) (endpoints : List GroupEndpoint) (r : GroupRun) :
    Except SrtError Unit × GroupRun :=
  let spawned := connectGroup lib r.step 0 grp endpoints
  match spawned.refused with
  | some err => (.error err, { r with step := r.step + 1 })
  | none =>
    let members := spawnedMembers endpoints spawned.members
    let entry := r.entry.updateStatus .connected
    let watched := if entry.isGroup then watchSpawned lib r.step r.clock members else []
    (.ok (),
      { r with
        entry := { entry with watched := entry.watched ++ watched }
        step := r.step + 1
        trace := r.trace ++ spawnEvents r.step members })

/-- `add_group_member`: one handshake per token. -/
def addGroupMember (lib : Libsrt) (grp : SocketId) (endpoint : GroupEndpoint) (r : GroupRun) :
    Except SrtError Unit × GroupRun :=
  let k := r.step
  let unchanged := { r with step := k + 1 }
  if ¬(r.entry.isGroup ∧ isTerminalStatus r.entry.lastStatus = false) then
    (.error .connectionLost, unchanged)
  else if lib.getsockstate k 0 grp ≠ .connected then (.error .connectionLost, unchanged)
  else
    let rows := readGroupRows lib k 0 grp
    match memberInFlight lib k 1 rows endpoint.token [] with
    | some _ => (.ok (), unchanged)
    | none =>
      match (connectGroup lib k 1 grp [endpoint]).single with
      | .error err => (.error err, unchanged)
      | .ok member =>
        let watched := r.entry.watched ++ [.spawned lib k member endpoint r.clock]
        (.ok (),
          { r with
            entry := { r.entry with watched := watched }
            step := k + 1
            trace := r.trace ++ [.spawn k member endpoint] })

/-- What a check at step `k` reads: the live states first, then the listing. -/
def checkInput (lib : Libsrt) (grp : SocketId) (r : GroupRun) : CheckInput where
  grp := grp
  backup := r.entry.backup
  rows := readGroupRows lib (r.step + r.entry.watched.length) 0 grp
  now := r.clock

/-- `check_group`: read the members, then look at each that is due. -/
def checkGroup (lib : Libsrt) (grp : SocketId) (r : GroupRun) : GroupRun :=
  if r.entry.watched.any (fun w => w.notBefore ≤ r.clock) then
    let n := r.entry.watched.length
    let c := checkLoop lib (r.checkInput lib grp) n
      ⟨readLive lib r.step r.entry.watched, 0, [], r.step + n + 1, r.trace⟩
    let entry := { r.entry with watched := c.watched ++ c.spawned }
    { r with
      entry :=
        if entry.lastStatus = .connecting ∧ lib.getsockstate c.step 0 grp = .connected then
          entry.updateStatus .connected
        else entry
      step := c.step + 1
      trace := c.trace }
  else r

/-- What can happen to a caller group: time passes, its commands, its checks,
another order of the watched list, another status. -/
inductive Action where
  | elapse (d : Duration)
  | connect (endpoints : List GroupEndpoint)
  | add (endpoint : GroupEndpoint)
  | check
  | reorder (watched : List WatchedMember)
  | status (status : SocketStatus)

def act (lib : Libsrt) (grp : SocketId) (r : GroupRun) : Action → GroupRun
  | .elapse d => { r with clock := r.clock + d }
  | .connect endpoints => (r.connect lib grp endpoints).2
  | .add endpoint => (r.addGroupMember lib grp endpoint).2
  | .check => r.checkGroup lib grp
  | .reorder watched =>
    if watched.Perm r.entry.watched then { r with entry := { r.entry with watched := watched } } else r
  | .status status => { r with entry := r.entry.updateStatus status }

def start (backup : Bool) : GroupRun := ⟨.freshGroup backup, 0, 0, []⟩

def run (lib : Libsrt) (grp : SocketId) (r : GroupRun) (actions : List Action) : GroupRun :=
  actions.foldl (act lib grp) r

end GroupRun

section Lists

variable {lib : Libsrt} {k : ℕ} {now : Instant} {members : List (GroupEndpoint × SocketId)}

theorem spawnedMembers_ids {endpoints : List GroupEndpoint} {results : List (Except SrtError SocketId)}
    (h : results.length = endpoints.length) :
    (spawnedMembers endpoints results).map Prod.snd = results.filterMap okId := by
  induction endpoints generalizing results with
  | nil => simp [spawnedMembers, List.length_eq_zero_iff.mp h]
  | cons ep eps ih =>
    cases results with
    | nil => simp at h
    | cons m ms =>
      have ih := ih (by simpa using h)
      simp only [spawnedMembers, List.zip_cons_cons, List.filterMap_cons] at ih ⊢
      cases hm : okId m with
      | none => simpa [hm] using ih
      | some id => simpa [hm] using ih

theorem spawnedMembers_endpoints (endpoints : List GroupEndpoint)
    (results : List (Except SrtError SocketId)) :
    ((spawnedMembers endpoints results).map Prod.fst).Sublist endpoints := by
  induction endpoints generalizing results with
  | nil => simp [spawnedMembers]
  | cons ep eps ih =>
    cases results with
    | nil => simp [spawnedMembers]
    | cons m ms =>
      have ih := ih ms
      simp only [spawnedMembers, List.zip_cons_cons, List.filterMap_cons] at ih ⊢
      cases hm : okId m with
      | none => simpa [hm] using ih.cons ep
      | some id => simpa [hm] using ih.cons_cons ep

variable (lib k) in
theorem readLive_keys (ws : List WatchedMember) :
    (readLive lib k ws).map WatchedMember.key = ws.map WatchedMember.key := by
  induction ws generalizing k with
  | nil => rfl
  | cons w ws ih => simp [readLive, ih, WatchedMember.key]

/-- A member as a check reads it: the one it was, with its live state of now. -/
theorem mem_readLive {ws : List WatchedMember} {w : WatchedMember} (h : w ∈ readLive lib k ws) :
    ∃ v ∈ ws, ∃ i, k ≤ i ∧ i < k + ws.length ∧ w = { v with live := lib.status i 0 v.id } := by
  induction ws generalizing k with
  | nil => simp [readLive] at h
  | cons x xs ih =>
    rcases List.mem_cons.mp h with rfl | h
    · exact ⟨x, by simp, k, le_rfl, by simp, rfl⟩
    · obtain ⟨v, hv, i, hki, hi, rfl⟩ := ih h
      exact ⟨v, by simp [hv], i, by omega, by simp; omega, rfl⟩

end Lists

/-- What an invariant of a group's runs is preserved by: `P` holds between checks,
of the watched members, the clock, the next step and the trace; `Q` at the turns of
a check. -/
structure Preserved (lib : Libsrt) (grp : SocketId) (ok : GroupRun.Action → Prop)
    (P : List WatchedMember → Instant → ℕ → List MemberEvent → Prop)
    (Q : CheckInput → List WatchedMember → List WatchedMember → List WatchedMember → ℕ →
      List MemberEvent → Prop) : Prop where
  elapse : ∀ {ws k T} now d, P ws now k T → P ws (now + d) k T
  skip : ∀ {ws k T} now, P ws now k T → P ws now (k + 1) T
  reorder : ∀ {ws ws' k T} now, ws'.Perm ws → P ws now k T → P ws' now k T
  connect : ∀ {ws now k T endpoints}, ok (.connect endpoints) → P ws now k T →
    (connectGroup lib k 0 grp endpoints).refused = none →
    P (ws ++ watchSpawned lib k now
        (spawnedMembers endpoints (connectGroup lib k 0 grp endpoints).members)) now (k + 1)
      (T ++ spawnEvents k (spawnedMembers endpoints (connectGroup lib k 0 grp endpoints).members))
  add : ∀ {ws now k T endpoint member}, ok (.add endpoint) → P ws now k T →
    memberInFlight lib k 1 (readGroupRows lib k 0 grp) endpoint.token [] = none →
    (connectGroup lib k 1 grp [endpoint]).single = .ok member →
    P (ws ++ [.spawned lib k member endpoint now]) now (k + 1) (T ++ [.spawn k member endpoint])
  begin : ∀ {ws now k T inp}, P ws now k T → inp.grp = grp → inp.now = now →
    inp.rows = readGroupRows lib (k + ws.length) 0 grp →
    Q inp [] (readLive lib k ws) [] (k + ws.length + 1) T
  turn : ∀ {inp seen w unseen spawned k T seen' unseen' spawned' events},
    Q inp seen (w :: unseen) spawned k T →
    Exit lib inp k seen w unseen spawned seen' unseen' spawned' events →
    Q inp seen' unseen' spawned' (k + 1) (T ++ events)
  finish : ∀ {inp ws spawned k T}, Q inp ws [] spawned k T → P (ws ++ spawned) inp.now (k + 1) T

theorem Preserved.and {lib : Libsrt} {grp : SocketId} {ok : GroupRun.Action → Prop}
    {P P' : List WatchedMember → Instant → ℕ → List MemberEvent → Prop}
    {Q Q' : CheckInput → List WatchedMember → List WatchedMember → List WatchedMember → ℕ →
      List MemberEvent → Prop} (h : Preserved lib grp ok P Q) (h' : Preserved lib grp ok P' Q') :
    Preserved lib grp ok (fun ws now k T => P ws now k T ∧ P' ws now k T)
      (fun inp seen unseen spawned k T => Q inp seen unseen spawned k T ∧
        Q' inp seen unseen spawned k T) where
  elapse now d hp := ⟨h.elapse now d hp.1, h'.elapse now d hp.2⟩
  skip now hp := ⟨h.skip now hp.1, h'.skip now hp.2⟩
  reorder now hr hp := ⟨h.reorder now hr hp.1, h'.reorder now hr hp.2⟩
  connect ho hp hc := ⟨h.connect ho hp.1 hc, h'.connect ho hp.2 hc⟩
  add ho hp hf hc := ⟨h.add ho hp.1 hf hc, h'.add ho hp.2 hf hc⟩
  begin hp hg hn hr := ⟨h.begin hp.1 hg hn hr, h'.begin hp.2 hg hn hr⟩
  turn hq he := ⟨h.turn hq.1 he, h'.turn hq.2 he⟩
  finish hq := ⟨h.finish hq.1, h'.finish hq.2⟩

section Runs

open GroupRun

variable {lib : Libsrt} {grp : SocketId} {ok : Action → Prop}
  {P : List WatchedMember → Instant → ℕ → List MemberEvent → Prop}
  {Q : CheckInput → List WatchedMember → List WatchedMember → List WatchedMember → ℕ →
    List MemberEvent → Prop}

/-- What an invariant says of a group's run between two actions. -/
def GroupRun.Holds (P : List WatchedMember → Instant → ℕ → List MemberEvent → Prop)
    (r : GroupRun) : Prop :=
  r.entry.isGroup = true ∧ P r.entry.watched r.clock r.step r.trace

theorem Preserved.holds_connect (hP : Preserved lib grp ok P Q) {r : GroupRun}
    {endpoints : List GroupEndpoint} (ho : ok (.connect endpoints)) (h : r.Holds P) :
    (r.connect lib grp endpoints).2.Holds P := by
  obtain ⟨hg, h⟩ := h
  cases hr : (connectGroup lib r.step 0 grp endpoints).refused with
  | some err =>
    simp only [GroupRun.connect, hr]
    exact ⟨hg, hP.skip _ h⟩
  | none =>
    simp only [GroupRun.connect, hr, SocketState.updateStatus_isGroup, hg, if_true,
      SocketState.updateStatus_watched]
    exact ⟨by simp, hP.connect ho h hr⟩

/-- An add changes nothing but the step, or watches one more member. -/
theorem GroupRun.holds_addGroupMember {r : GroupRun} {endpoint : GroupEndpoint} (hg : r.entry.isGroup = true)
    (hskip : P r.entry.watched r.clock (r.step + 1) r.trace)
    (hadd : ∀ member, memberInFlight lib r.step 1 (readGroupRows lib r.step 0 grp) endpoint.token [] = none →
      (connectGroup lib r.step 1 grp [endpoint]).single = .ok member →
        P (r.entry.watched ++ [.spawned lib r.step member endpoint r.clock]) r.clock (r.step + 1)
          (r.trace ++ [.spawn r.step member endpoint])) :
    (r.addGroupMember lib grp endpoint).2.Holds P := by
  unfold GroupRun.addGroupMember
  by_cases hl : r.entry.isGroup ∧ isTerminalStatus r.entry.lastStatus = false
  · by_cases hc : lib.getsockstate r.step 0 grp = .connected
    · simp only [hl, hc, not_true_eq_false, ne_eq, and_self, if_false]
      cases hf : memberInFlight lib r.step 1 (readGroupRows lib r.step 0 grp) endpoint.token [] with
      | some existing => exact ⟨hg, hskip⟩
      | none =>
        cases hm : (connectGroup lib r.step 1 grp [endpoint]).single with
        | error err => exact ⟨hg, hskip⟩
        | ok member => exact ⟨rfl, hadd member hf hm⟩
    · simp only [hl, hc, not_true_eq_false, not_false_eq_true, ne_eq, and_self, if_false, if_true]
      exact ⟨hg, hskip⟩
  · simp only [hl, not_false_eq_true, if_true]
    exact ⟨hg, hskip⟩

theorem Preserved.holds_add (hP : Preserved lib grp ok P Q) {r : GroupRun}
    {endpoint : GroupEndpoint} (ho : ok (.add endpoint)) (h : r.Holds P) :
    (r.addGroupMember lib grp endpoint).2.Holds P :=
  GroupRun.holds_addGroupMember h.1 (hP.skip _ h.2) fun _ hf hm => hP.add ho h.2 hf hm

theorem Preserved.holds_check (hP : Preserved lib grp ok P Q) {r : GroupRun} (h : r.Holds P) :
    (r.checkGroup lib grp).Holds P := by
  obtain ⟨hg, h⟩ := h
  unfold GroupRun.checkGroup
  by_cases hdue : r.entry.watched.any (fun w => w.notBefore ≤ r.clock) = true
  · have hq : Q (r.checkInput lib grp) [] (readLive lib r.step r.entry.watched) []
        (r.step + r.entry.watched.length + 1) r.trace := hP.begin h rfl rfl rfl
    have hlen : (readLive lib r.step r.entry.watched).length = r.entry.watched.length := by
      simpa using congrArg List.length (readLive_keys lib r.step r.entry.watched)
    obtain ⟨ws, spawned, k, T, hc, hq⟩ := checkLoop_induction (P := Q (r.checkInput lib grp))
      (fun _ _ _ _ _ _ _ _ _ _ hq he => hP.turn hq he) _ [] _ [] _ _ hlen hq
    simp only [List.nil_append, List.length_nil] at hc
    have hf : P (ws ++ spawned) r.clock (k + 1) T := hP.finish hq
    simp only [hdue, if_true, hc]
    split_ifs
    · exact ⟨by simpa using hg, by simpa using hf⟩
    · exact ⟨hg, hf⟩
  · simpa only [hdue, Bool.false_eq_true, if_false] using ⟨hg, h⟩

theorem Preserved.holds_act (hP : Preserved lib grp ok P Q) {r : GroupRun} {a : Action} (ho : ok a)
    (h : r.Holds P) : (act lib grp r a).Holds P := by
  cases a with
  | elapse d => exact ⟨h.1, hP.elapse _ d h.2⟩
  | connect endpoints => exact hP.holds_connect ho h
  | add endpoint => exact hP.holds_add ho h
  | check => exact hP.holds_check h
  | reorder watched =>
    simp only [act]
    split_ifs with hp
    · exact ⟨h.1, hP.reorder _ hp h.2⟩
    · exact h
  | status status =>
    exact ⟨by simpa [act] using h.1, by simpa [act] using h.2⟩

/-- An invariant holds after every run of the actions it allows. -/
theorem Preserved.holds_run (hP : Preserved lib grp ok P Q) {actions : List Action}
    (ho : ∀ a ∈ actions, ok a) {r : GroupRun} (h : r.Holds P) :
    (r.run lib grp actions).Holds P := by
  induction actions generalizing r with
  | nil => exact h
  | cons a actions ih =>
    exact ih (fun b hb => ho b (by simp [hb])) (hP.holds_act (ho a (by simp)) h)

end Runs

section Record

variable {lib : Libsrt} {grp : SocketId} (T : List MemberEvent)

def Check.after (c : Check) : Check := { c with trace := T ++ c.trace }

def GroupRun.after (r : GroupRun) : GroupRun := { r with trace := T ++ r.trace }

/-- What a check does depends on no record. -/
theorem checkTurn_after (inp : CheckInput) (c : Check) :
    checkTurn lib inp (c.after T) = (checkTurn lib inp c).after T := by
  unfold checkTurn Check.after
  dsimp only
  split
  · rfl
  · split_ifs
    · rfl
    · split
      · simp
      · simp
      · simp
      · simp
      · split <;> simp

theorem checkLoop_after (inp : CheckInput) (n : ℕ) (c : Check) :
    checkLoop lib inp n (c.after T) = (checkLoop lib inp n c).after T := by
  induction n generalizing c with
  | zero => rfl
  | succ n ih =>
    rw [checkLoop, checkLoop, checkTurn_after, ih]
    show (if c.idx < c.watched.length then _ else _) = _
    split_ifs <;> rfl

theorem GroupRun.act_after (r : GroupRun) (a : GroupRun.Action) :
    GroupRun.act lib grp (r.after T) a = (GroupRun.act lib grp r a).after T := by
  cases a with
  | elapse | status => rfl
  | connect eps =>
    unfold GroupRun.act GroupRun.connect GroupRun.after
    dsimp only
    split <;> simp
  | add ep =>
    unfold GroupRun.act GroupRun.addGroupMember GroupRun.after
    dsimp only
    split_ifs
    · rfl
    · split
      · rfl
      · split <;> simp
    · rfl
  | reorder ws =>
    by_cases h : ws.Perm r.entry.watched <;> simp [GroupRun.act, GroupRun.after, h]
  | check =>
    have hloop := @checkLoop_after lib T (r.checkInput lib grp) r.entry.watched.length
      ⟨readLive lib r.step r.entry.watched, 0, [], r.step + r.entry.watched.length + 1, r.trace⟩
    have hinp : GroupRun.checkInput lib grp (r.after T) = r.checkInput lib grp := rfl
    have hdue : (r.after T).entry.watched.any (fun w => w.notBefore ≤ (r.after T).clock) =
      r.entry.watched.any (fun w => w.notBefore ≤ r.clock) := rfl
    show (r.after T).checkGroup lib grp = (r.checkGroup lib grp).after T
    rw [GroupRun.checkGroup, GroupRun.checkGroup, hdue]
    split_ifs
    · simp only [hinp]
      simp only [GroupRun.after, Check.after] at hloop ⊢
      simp only [hloop]
    · rfl

theorem GroupRun.act_clock (r : GroupRun) {a : GroupRun.Action} (h : ∀ d, a ≠ .elapse d) :
    (GroupRun.act lib grp r a).clock = r.clock := by
  cases a with
  | elapse d => exact absurd rfl (h d)
  | status => rfl
  | connect eps =>
    unfold GroupRun.act GroupRun.connect
    dsimp only
    split <;> rfl
  | add ep =>
    unfold GroupRun.act GroupRun.addGroupMember
    dsimp only
    split_ifs
    · rfl
    · split
      · rfl
      · split <;> rfl
    · rfl
  | reorder ws =>
    unfold GroupRun.act
    dsimp only
    split_ifs <;> rfl
  | check =>
    unfold GroupRun.act GroupRun.checkGroup
    dsimp only
    split_ifs <;> rfl

theorem GroupRun.act_trace (r : GroupRun) (a : GroupRun.Action) :
    ∃ events, (GroupRun.act lib grp r a).trace = r.trace ++ events := by
  have hr : GroupRun.act lib grp r a = (GroupRun.act lib grp { r with trace := [] } a).after r.trace := by
    rw [← GroupRun.act_after, GroupRun.after, List.append_nil]
  exact ⟨_, congrArg GroupRun.trace hr⟩

end Record

end SrtBridge
