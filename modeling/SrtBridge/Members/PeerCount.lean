import SrtBridge.Members.Turns
import SrtBridge.Members.Carriers
import SrtBridge.General.Runs

/-! How many members the peer sees. Of the members spawned into a group and not
closed, those that are connected are listed by the peer; the bond has room for one
per endpoint, and for the one overlap a bond of a single endpoint cannot avoid. A run
stays within that if nothing is spawned while an overlap is open, and no overlap is
begun beside a member that the plan does not weigh. -/

namespace SrtBridge

open General GroupRun

def doneBefore (k : ℕ) (T : List MemberEvent) : List MemberEvent := T.filter fun e => e.step < k

/-- The members at the peer as reading `j` of step `k` shows them: spawned and not
closed before, with a connected socket. -/
def membersAtPeer (lib : Libsrt) (k j : ℕ) (T : List MemberEvent) : List Birth :=
  (births (doneBefore k T)).filter fun b =>
    b.id ∉ closedIds (doneBefore k T) ∧ lib.getsockstate k j b.id = .connected

/-- No reading shows more members at the peer than the bond has, or two where the
bond has one. -/
def PeerBound (lib : Libsrt) (n : ℕ) (T : List MemberEvent) : Prop :=
  ∀ k j, (membersAtPeer lib k j T).length ≤ max n 2

/-- A spawned member stays listed under its endpoint's token until it is closed or
dead. -/
def StaysListed (lib : Libsrt) (grp : SocketId) (T : List MemberEvent) : Prop :=
  ∀ b id ep, .spawn b id ep ∈ T → ∀ k j, b < k →
    (∃ r ∈ readGroupRows lib k j grp, r.id = id ∧ r.token = ep.token) ∨
      (∃ i ≤ k, .close i id ∈ T) ∨ ∃ i ≤ k, b < i ∧ ∃ j', isTerminalStatus (lib.status i j' id) = true

def DeadAt (lib : Libsrt) (k : ℕ) (id : SocketId) : Prop := isTerminalStatus (lib.status k 0 id) = true

instance (lib : Libsrt) (k : ℕ) (id : SocketId) : Decidable (DeadAt lib k id) :=
  inferInstanceAs (Decidable (_ = true))

/-- No overlap is open when step `k` begins: what a watched member supersedes is dead. -/
def NoOverlap (lib : Libsrt) (k : ℕ) (ws : List WatchedMember) : Prop :=
  ∀ w ∈ ws, ∀ id ∈ w.supersedes, DeadAt lib k id

instance (lib : Libsrt) (k : ℕ) (ws : List WatchedMember) : Decidable (NoOverlap lib k ws) :=
  inferInstanceAs (Decidable (∀ w ∈ ws, ∀ id ∈ w.supersedes, DeadAt lib k id))

/-- When the bond's endpoint may be added again: if nothing listed carries it in flight,
no overlap is open and no member of it is listed Broken and alive. -/
def AddMeets (lib : Libsrt) (grp : SocketId) (endpoints : List GroupEndpoint) (r : GroupRun)
    (ep : GroupEndpoint) : Prop :=
  ep ∈ endpoints ∧
    (memberInFlight lib r.step 1 (readGroupRows lib r.step 0 grp) ep.token [] = none →
      NoOverlap lib r.step r.entry.watched ∧
        ∀ row ∈ readGroupRows lib r.step 0 grp, row.token = ep.token →
          mapMemberStatus row.memberstate = .broken → DeadAt lib r.step row.id)

/-- The plan for `w` finds no other member up at the peer, on its way there, or listed Broken
on a connected socket. -/
def Alone (lib : Libsrt) (inp : CheckInput) (c : Check) (w : WatchedMember) : Prop :=
  otherMemberAtPeer lib c.step inp.rows.length inp.rows (repairChain w) = false ∧
    otherMemberBrokenLive lib c.step (2 * inp.rows.length) (c.watched ++ c.spawned) inp.rows
      (repairChain w) = false ∧
    otherMemberHandshaking (c.watched ++ c.spawned) (repairChain w) inp.now = false

/-- When a member may be replaced: if nothing listed carries its endpoint in flight, no overlap
is open; if the plan finds nobody else, no other watched member is in a handshake past its
deadline and none that the bridge does not watch is alive. -/
def RepairMeets (lib : Libsrt) (inp : CheckInput) (c : Check) (w : WatchedMember) : Prop :=
  (memberInFlight lib c.step 0 inp.rows w.endpoint.token (repairChain w) = none →
    NoOverlap lib c.step (c.watched ++ c.spawned)) ∧
    (Alone lib inp c w →
      (∀ e ∈ c.watched ++ c.spawned, e.id ≠ w.id → e.live = .connected ∨ isTerminalStatus e.live = true) ∧
      ∀ row ∈ inp.rows, row.id ∉ watchedIds (c.watched ++ c.spawned) → DeadAt lib c.step row.id)

/-- The turn of a check from `c` on replaces its member, if at all, when it may. -/
def TurnMeets (lib : Libsrt) (inp : CheckInput) (c : Check) : Prop :=
  ∀ w ∈ c.watched[c.idx]?, w.notBefore ≤ inp.now → (lookAt lib inp c.step w).next = .repair →
    RepairMeets lib inp c w

/-- What may happen to a group connected with `endpoints`. -/
def ActionMeets (lib : Libsrt) (grp : SocketId) (endpoints : List GroupEndpoint) (r : GroupRun) :
    Action → Prop
  | .connect _ => False
  | .add ep => AddMeets lib grp endpoints r ep
  | .check => ∀ n < r.entry.watched.length, TurnMeets lib (r.checkInput lib grp) (r.turns lib grp n)
  | _ => True

section Decidable

variable (lib : Libsrt) (grp : SocketId) (endpoints : List GroupEndpoint) (r : GroupRun)

instance (ep : GroupEndpoint) : Decidable (AddMeets lib grp endpoints r ep) :=
  inferInstanceAs (Decidable (_ ∧ (_ → _ ∧ ∀ row ∈ _, _)))

instance (inp : CheckInput) (c : Check) (w : WatchedMember) : Decidable (Alone lib inp c w) :=
  inferInstanceAs (Decidable (_ ∧ _ ∧ _))

instance (inp : CheckInput) (c : Check) (w : WatchedMember) : Decidable (RepairMeets lib inp c w) :=
  inferInstanceAs (Decidable ((_ → _) ∧ (_ → (∀ e ∈ _, _) ∧ ∀ row ∈ _, _)))

instance (inp : CheckInput) (c : Check) : Decidable (TurnMeets lib inp c) :=
  inferInstanceAs (Decidable (∀ w ∈ c.watched[c.idx]?, _ → _ → _))

instance : DecidablePred (ActionMeets lib grp endpoints r)
  | .connect _ => inferInstanceAs (Decidable False)
  | .add ep => inferInstanceAs (Decidable (AddMeets lib grp endpoints r ep))
  | .check => inferInstanceAs (Decidable (∀ n < _, TurnMeets lib _ (r.turns lib grp n)))
  | .elapse _ | .reorder _ | .status _ => inferInstanceAs (Decidable True)

end Decidable

/-- Not closed, and its socket alive when step `k` begins; a member spawned in step `k`
or later has no socket before that. -/
def Birth.Open (lib : Libsrt) (k : ℕ) (T : List MemberEvent) (b : Birth) : Prop :=
  b.id ∉ closedIds T ∧ (b.step < k → ¬DeadAt lib k b.id)

instance (lib : Libsrt) (k : ℕ) (T : List MemberEvent) : DecidablePred (Birth.Open lib k T) :=
  fun _ => inferInstanceAs (Decidable (_ ∧ _))

/-- What a bond keeps. As far as members were alive at step `kb`, each endpoint has one
that is not superseded; at step `k` no superseded member is alive, or two members are at
most. -/
structure Bonded (lib : Libsrt) (endpoints : List GroupEndpoint) (kb k : ℕ) (ws : List WatchedMember)
    (T : List MemberEvent) : Prop where
  begun : kb ≤ k
  steps : ∀ e ∈ T, e.step < k
  born : ∀ b ∈ births T, b.endpoint ∈ endpoints
  own : ∀ w ∈ ws, ∃ b ∈ births T, b.id = w.id ∧ b.endpoint = w.endpoint
  single : ∀ b ∈ births T, ∀ b' ∈ births T, b.Open lib kb T → b'.Open lib kb T →
    b.id ∉ supersededIds ws → b'.id ∉ supersededIds ws → b.endpoint = b'.endpoint → b = b'
  overlap : (∀ b ∈ births T, b.Open lib k T → b.id ∉ supersededIds ws) ∨
    (births T).countP (Birth.Open lib k T) ≤ 2

section Open

variable {lib : Libsrt} {endpoints : List GroupEndpoint} {kb k k' : ℕ} {T events F : List MemberEvent}
  {ws ws' : List WatchedMember} {b : Birth}

theorem Forward.not_deadAt (hw : Forward lib F) (hb : b ∈ births F) (hk : b.step < k) (hle : k ≤ k') {j' : ℕ}
    (h : ¬isTerminalStatus (lib.status k' j' b.id) = true) (j : ℕ) (hj : k < k' ∨ j ≤ j') :
    ¬isTerminalStatus (lib.status k j b.id) = true := by
  intro hdead
  have hmono := hw b.step b.id b.endpoint (mem_births.mp hb) k k' j j' hk (by omega)
  have htwo := (lib.getsockstate k' j' b.id).phase_le_two
  rw [SockState.phase_eq_two.mpr hdead] at hmono
  exact h (SockState.phase_eq_two.mp (by omega))

theorem Birth.Open.mono (hw : Forward lib F) (hb : b ∈ births F) (h : b.Open lib k' (T ++ events))
    (hk : k ≤ k') : b.Open lib k T := by
  obtain ⟨hclosed, hlive⟩ := h
  rw [closedIds_append, List.mem_append, not_or] at hclosed
  exact ⟨hclosed.1, fun hlt => hw.not_deadAt hb hlt hk (hlive (hlt.trans_le hk)) 0 (by omega)⟩

theorem mem_births_append : b ∈ births (T ++ events) ↔ b ∈ births T ∨ b ∈ births events := by
  rw [births_append, List.mem_append]

theorem births_subset (h : T ⊆ F) (hb : b ∈ births T) : b ∈ births F :=
  mem_births.mpr (h (mem_births.mp hb))

/-- A step keeps the bond if it forgets a superseded member only by closing it, and spawns a member only
for an endpoint without an open one. -/
theorem Bonded.next {kb' : ℕ} (h : Bonded lib endpoints kb k ws T) (hw : Forward lib F) (hT : T ⊆ F)
    (hkb : kb ≤ kb') (hk' : kb' ≤ k') (hk : k ≤ k') (hs : ∀ e ∈ events, e.step < k')
    (hborn : ∀ b ∈ births events, b.endpoint ∈ endpoints)
    (hown : ∀ w ∈ ws', (∃ v ∈ ws, v.id = w.id ∧ v.endpoint = w.endpoint) ∨
      ∃ b ∈ births events, b.id = w.id ∧ b.endpoint = w.endpoint)
    (hkept : ∀ id ∈ supersededIds ws, id ∈ supersededIds ws' ∨ id ∈ closedIds events)
    (hsole : ∀ b ∈ births (T ++ events), ∀ b' ∈ births events, b.Open lib kb' (T ++ events) →
      b.id ∉ supersededIds ws' → b.endpoint = b'.endpoint → b = b')
    (hsup : (∀ b ∈ births (T ++ events), b.Open lib k' (T ++ events) → b.id ∉ supersededIds ws') ∨
      (births (T ++ events)).countP (Birth.Open lib k' (T ++ events)) ≤ 2) :
    Bonded lib endpoints kb' k' ws' (T ++ events) := by
  refine ⟨hk', fun e he => ?_, fun b hb => ?_, fun w hw' => ?_, fun b hb b' hb' ho ho' hn hn' hep => ?_, hsup⟩
  · rcases List.mem_append.mp he with he | he
    · exact (h.steps e he).trans_le hk
    · exact hs e he
  · exact (mem_births_append.mp hb).elim (h.born b) (hborn b)
  · rcases hown w hw' with ⟨v, hv, hid, hep⟩ | ⟨b, hb, hid, hep⟩
    · obtain ⟨b, hb, hbid, hbep⟩ := h.own v hv
      exact ⟨b, mem_births_append.mpr (.inl hb), hbid.trans hid, hbep.trans hep⟩
    · exact ⟨b, mem_births_append.mpr (.inr hb), hid, hep⟩
  · rcases mem_births_append.mp hb with hold | hnew
    · rcases mem_births_append.mp hb' with hold' | hnew'
      · have hsame {c : Birth} (hc : c ∈ births T) (ho : c.Open lib kb' (T ++ events))
            (hn : c.id ∉ supersededIds ws') : c.Open lib kb T ∧ c.id ∉ supersededIds ws :=
          ⟨ho.mono hw (births_subset hT hc) hkb, fun hin => (hkept _ hin).elim hn fun hcl =>
            ho.1 (by rw [closedIds_append]; exact List.mem_append_right _ hcl)⟩
        obtain ⟨hob, hnb⟩ := hsame hold ho hn
        obtain ⟨hob', hnb'⟩ := hsame hold' ho' hn'
        exact h.single b hold b' hold' hob hob' hnb hnb' hep
      · exact hsole b hb b' hnew' ho hn hep
    · exact (hsole b' hb' b hnew ho' hn' hep.symm).symm

/-- Later on, between two steps, the same members are bonded. -/
theorem Bonded.later {kb' : ℕ} (h : Bonded lib endpoints kb k ws T) (hw : Forward lib F) (hT : T ⊆ F)
    (hkb : kb ≤ kb') (hk' : kb' ≤ k') (hk : k ≤ k')
    (hown : ∀ w ∈ ws', ∃ v ∈ ws, v.id = w.id ∧ v.endpoint = w.endpoint)
    (hsup : ∀ id, id ∈ supersededIds ws' ↔ id ∈ supersededIds ws) : Bonded lib endpoints kb' k' ws' T := by
  have hopen {b : Birth} (hb : b ∈ births T) (ho : b.Open lib k' T) : b.Open lib k T :=
    (show b.Open lib k' (T ++ []) by rwa [List.append_nil]).mono hw (births_subset hT hb) hk
  rw [← List.append_nil T]
  refine h.next hw hT hkb hk' hk (by simp) (by simp [births]) (fun w hw => .inl (hown w hw))
    (fun id hid => .inl ((hsup id).mpr hid)) (by simp [births]) ?_
  rw [List.append_nil]
  refine h.overlap.imp (fun hno b hb ho hin => ?_) fun hle => ?_
  · exact hno b hb (hopen hb ho) ((hsup _).mp hin)
  · exact (List.countP_mono_left fun b hb ho => decide_eq_true (hopen hb (of_decide_eq_true ho))).trans hle

/-- The members at the peer are within the bond. -/
theorem Bonded.bound (h : Bonded lib endpoints kb k ws T) (hn : (spawnedIds T).Nodup) (hw : Forward lib F)
    (hT : T ⊆ F) {i : ℕ} (hi : k ≤ i) (j : ℕ) :
    (births T).countP (fun b => b.id ∉ closedIds T ∧ lib.getsockstate i j b.id = .connected) ≤
      max endpoints.length 2 := by
  have hopen : (births T).countP (fun b => b.id ∉ closedIds T ∧ lib.getsockstate i j b.id = .connected) ≤
      (births T).countP (Birth.Open lib k T) := by
    refine List.countP_mono_left fun b hb hp => decide_eq_true ?_
    obtain ⟨hclosed, hconn⟩ := of_decide_eq_true hp
    have hlive : ¬isTerminalStatus (lib.status i j b.id) = true := by
      rw [Libsrt.status, hconn]
      decide
    exact ⟨hclosed, fun hlt => hw.not_deadAt (births_subset hT hb) hlt hi hlive 0 (by omega)⟩
  refine hopen.trans ?_
  rcases h.overlap with hno | htwo
  · -- no two open members have one endpoint
    have hsub : ((births T).filter (Birth.Open lib k T)).map Birth.endpoint ⊆ endpoints := by
      intro ep hep
      obtain ⟨b, hb, rfl⟩ := List.mem_map.mp hep
      exact h.born b (List.mem_of_mem_filter hb)
    have hids : (births T).Nodup := List.Nodup.of_map _ (births_ids T ▸ hn)
    have hmem {b : Birth} (hb : b ∈ (births T).filter (Birth.Open lib k T)) :
        b ∈ births T ∧ b.Open lib k T ∧ b.Open lib kb T := by
      obtain ⟨hb, ho⟩ := List.mem_filter.mp hb
      have ho : b.Open lib k T := of_decide_eq_true ho
      exact ⟨hb, ho, (show b.Open lib k (T ++ []) by rwa [List.append_nil]).mono hw (births_subset hT hb) h.begun⟩
    have hnodup : (((births T).filter (Birth.Open lib k T)).map Birth.endpoint).Nodup := by
      refine (hids.filter _).map_on fun b hb b' hb' hep => ?_
      obtain ⟨hb, ho, hkb⟩ := hmem hb
      obtain ⟨hb', ho', hkb'⟩ := hmem hb'
      exact h.single b hb b' hb' hkb hkb' (hno b hb ho) (hno b' hb' ho') hep
    have hlen := (hnodup.subperm hsub).length_le
    rw [List.length_map, ← List.countP_eq_length_filter] at hlen
    omega
  · omega

end Open

section Exits

variable {lib : Libsrt} {inp : CheckInput} {k : ℕ} {seen : List WatchedMember} {w v : WatchedMember}
  {unseen spawned seen' unseen' spawned' : List WatchedMember} {events : List MemberEvent}

variable (lib inp k seen w unseen spawned) in
/-- The member is kept for its replacement: it overlaps a new one, or is handed to a sibling. -/
def Overlaps : Prop :=
  w.notBefore ≤ inp.now ∧ (lookAt lib inp k w).next = .repair ∧
    (planAt lib inp k seen w unseen spawned = .spawnThenClose ∨
      ∃ other, planAt lib inp k seen w unseen spawned = .handToSibling other)

/-- A member is kept for its replacement only if the plan finds nobody else. -/
theorem Overlaps.alone (h : Overlaps lib inp k seen w unseen spawned) (T : List MemberEvent) :
    Alone lib inp ⟨seen ++ w :: unseen, seen.length, spawned, k, T⟩ w := by
  obtain ⟨-, hn, hp⟩ := h
  obtain ⟨hup, hbl, hhs⟩ := planRepair_alone hp
  rw [lookAt_repairChain hn] at hup hbl hhs
  refine ⟨hup, ?_, ?_⟩
  · rw [← hbl]
    exact otherMemberBrokenLive_congr (by simp)
  · -- the member itself is in its chain
    simp only [otherMemberHandshaking, List.any_append, List.any_cons, lookAt_id, mem_repairChain, or_true,
      not_true_eq_false, decide_false, Bool.false_and, Bool.false_or] at hhs ⊢
    exact hhs

theorem Exit.mem_supersededIds (h : Exit lib inp k seen w unseen spawned seen' unseen' spawned' events)
    {id : SocketId} (hid : id ∈ supersededIds (seen' ++ unseen' ++ spawned')) :
    id ∈ supersededIds (seen ++ w :: unseen ++ spawned) ∨ Overlaps lib inp k seen w unseen spawned := by
  obtain ⟨v, hv, hid⟩ := SrtBridge.mem_supersededIds.mp hid
  have hold {u : WatchedMember} (hu : u ∈ seen ++ w :: unseen ++ spawned) (hs : id ∈ u.supersedes) :
      id ∈ supersededIds (seen ++ w :: unseen ++ spawned) := SrtBridge.mem_supersededIds.mpr ⟨u, hu, hs⟩
  rcases h.mem_cases hv with ⟨u, hu, hp⟩ | hk | hr
  · have hu : u ∈ seen ++ w :: unseen ++ spawned := by
      simp only [List.mem_append, List.mem_cons] at hu ⊢
      tauto
    cases hp with
    | same => exact .inl (hold hu hid)
    | handed hd hn hp => exact .inr ⟨hd, hn, .inr ⟨_, hp⟩⟩
  · rw [hk.supersedes_eq] at hid
    split_ifs at hid
    · exact .inl (hold (by simp) hid)
    · exact .inl (hold (by simp) (mem_lookAt_supersedes hid))
  · cases hr with
    | closed => cases hid
    | overlaps hd hn hp => exact .inr ⟨hd, hn, .inl hp⟩

theorem Exit.due_of_spawn (h : Exit lib inp k seen w unseen spawned seen' unseen' spawned' events)
    (hs : spawnedIds events ≠ []) : w.notBefore ≤ inp.now ∧ (lookAt lib inp k w).next = .repair := by
  cases h with
  | later | keep | recheck | drop | abandon | close | hand => simp at hs
  | closeSpawn hd hn | overlap hd hn => exact ⟨hd, hn⟩

theorem Exit.births_le_one (h : Exit lib inp k seen w unseen spawned seen' unseen' spawned' events) :
    (births events).length ≤ 1 := by
  have hids : (births events).length = (spawnedIds events).length := by
    rw [← births_ids, List.length_map]
  rw [hids]
  cases h <;> simp

/-- What a turn leaves of a member has its socket state. -/
theorem Kept.live_eq (h : Kept lib inp k seen w unseen spawned v) : v.live = w.live := by
  cases h with
  | later => rfl
  | keep _ _ hk => rw [hk]; exact lookAt_live ..
  | recheck => exact lookAt_live ..

end Exits

/-- What a check that began at step `kb` and listed the group at `k₀` knows of the bond at its turn
of step `k`. -/
structure Bonding (lib : Libsrt) (grp : SocketId) (endpoints : List GroupEndpoint) (kb k₀ : ℕ)
    (inp : CheckInput) (seen unseen spawned : List WatchedMember) (k : ℕ) (T : List MemberEvent) : Prop
    extends Bonded lib endpoints kb k (seen ++ unseen ++ spawned) T where
  listed : kb ≤ k₀ ∧ k₀ < k
  rows : inp.rows = readGroupRows lib k₀ 0 grp
  read : ∀ v ∈ seen ++ unseen, ∃ i, kb ≤ i ∧ i < k₀ ∧ v.live = lib.status i 0 v.id
  newborn : ∀ b ∈ births T, kb ≤ b.step → ∃ x ∈ spawned, x.id = b.id
  fresh : ∀ x ∈ spawned, x.live = .init

/-- A turn of a check over a history `F` in which no id is given twice, that replaces its member, if
at all, when it may. -/
structure BondTurn (lib : Libsrt) (grp : SocketId) (endpoints : List GroupEndpoint) (F : List MemberEvent)
    (kb k₀ : ℕ) (inp : CheckInput) (seen : List WatchedMember) (w : WatchedMember)
    (unseen spawned : List WatchedMember) (k : ℕ) (T : List MemberEvent) : Prop
    extends Bonding lib grp endpoints kb k₀ inp seen (w :: unseen) spawned k T where
  forward : Forward lib F
  lists : StaysListed lib grp F
  till : Until F k T
  once : (spawnedIds T).Nodup
  acc : Accounted (seen ++ w :: unseen ++ spawned) k T
  meets : TurnMeets lib inp ⟨seen ++ w :: unseen, seen.length, spawned, k, T⟩

namespace BondTurn

variable {lib : Libsrt} {grp : SocketId} {endpoints : List GroupEndpoint} {kb k₀ k : ℕ} {inp : CheckInput}
  {seen unseen spawned seen' unseen' spawned' : List WatchedMember} {w : WatchedMember}
  {T F events : List MemberEvent} (h : BondTurn lib grp endpoints F kb k₀ inp seen w unseen spawned k T)
include h

theorem may_replace (hd : w.notBefore ≤ inp.now) (hn : (lookAt lib inp k w).next = .repair) :
    RepairMeets lib inp ⟨seen ++ w :: unseen, seen.length, spawned, k, T⟩ w :=
  h.meets w (by simp) hd hn

/-- The member looked at, as it was spawned before the check. -/
theorem birth : ∃ b ∈ births T, b.id = w.id ∧ b.endpoint = w.endpoint ∧ b.step < kb := by
  obtain ⟨b, hb, hid, hep⟩ := h.own w (by simp)
  refine ⟨b, hb, hid, hep, lt_of_not_ge fun hk => ?_⟩
  obtain ⟨x, hx, hxid⟩ := h.newborn b hb hk
  exact id_ne_of_nodup (h.acc.watchedIds_nodup h.once) (v := x) (by simp [hx]) (hxid.trans hid).symm

/-- A member to replace was open when the check began, and nobody supersedes it. -/
theorem birth_open (hn : (lookAt lib inp k w).next = .repair) {b : Birth} (hb : b ∈ births T)
    (hid : b.id = w.id) (hk : b.step < kb) :
    b.Open lib kb T ∧ b.id ∉ supersededIds (seen ++ w :: unseen ++ spawned) := by
  have hle := h.acc.held_le_one h.once w.id
  have hpos : 0 < (watchedIds (seen ++ w :: unseen ++ spawned)).count w.id :=
    List.count_pos_iff.mpr (List.mem_map_of_mem (by simp))
  rw [held] at hle
  have hzero {xs : List SocketId} (hx : xs.count w.id = 0) : b.id ∉ xs := hid ▸ List.count_eq_zero.mp hx
  obtain ⟨i, hi, -, hread⟩ := h.read w (by simp)
  have hlive : ¬isTerminalStatus (lib.status i 0 b.id) = true := by
    rw [hid, ← hread, lookAt_repair_live hn]
    decide
  exact ⟨⟨hzero (by omega), fun _ =>
    h.forward.not_deadAt (births_subset h.till.subset hb) hk hi hlive 0 (by omega)⟩, hzero (by omega)⟩

/-- A member that was in the group when the check listed it, and is alive, is in the listing. -/
theorem row_of_alive {b : Birth} (hb : b ∈ births T) (hk : b.step < k₀) (hc : b.id ∉ closedIds T)
    (hlive : ∀ i j, b.step < i → i ≤ k → ¬isTerminalStatus (lib.status i j b.id) = true) :
    ∃ r ∈ inp.rows, r.id = b.id := by
  have hlisted := h.listed
  rcases h.lists b.step b.id b.endpoint (h.till.subset (mem_births.mp hb)) k₀ 0 hk with
    ⟨r, hr, hid, -⟩ | ⟨i, hi, hcl⟩ | ⟨i, hi, hbi, j, hdead⟩
  · exact ⟨r, h.rows ▸ hr, hid⟩
  · exact absurd (h.till.mem_closedIds (by omega) hcl) hc
  · exact absurd hdead (hlive i j hbi (by omega))

/-- A member that overlaps its replacement is the only one alive from then on. -/
theorem others_dead (ho : Overlaps lib inp k seen w unseen spawned) {b : Birth} (hb : b ∈ births T)
    (hne : b.id ≠ w.id) (hc : b.id ∉ closedIds T) : DeadAt lib (k + 1) b.id := by
  obtain ⟨hup, hbl, hhs⟩ := ho.alone T
  obtain ⟨hresting, hgone⟩ := (h.may_replace ho.1 ho.2.1).2 ⟨hup, hbl, hhs⟩
  have hlisted := h.listed
  have hbk : b.step < k := h.steps _ (mem_births.mp hb)
  by_contra halive
  have hlive (i j : ℕ) (hi : b.step < i) (hik : i ≤ k) : ¬isTerminalStatus (lib.status i j b.id) = true :=
    h.forward.not_deadAt (births_subset h.till.subset hb) hi (by omega) halive j (by omega)
  -- no watched member of that id is in its handshake
  have hresolved {e : WatchedMember} (he : e ∈ seen ++ w :: unseen ++ spawned) (hid : e.id = b.id)
      (hc : e.live ≠ .connected) (ht : isTerminalStatus e.live = false) : False := by
    rcases hresting e he (hid ▸ hne) with h | h
    · exact hc h
    · rw [ht] at h
      cases h
  have hnew {x : WatchedMember} (hx : x ∈ spawned) (hid : x.id = b.id) : False := by
    refine hresolved (by simp [hx]) hid ?_ ?_ <;> rw [h.fresh x hx] <;> decide
  have hkb : b.step < kb := lt_of_not_ge fun hk => by
    obtain ⟨x, hx, hid⟩ := h.newborn b hb hk
    exact hnew hx hid
  obtain ⟨r, hr, hrid⟩ := h.row_of_alive hb (by omega) hc hlive
  by_cases hwatched : b.id ∈ watchedIds (seen ++ w :: unseen ++ spawned)
  · obtain ⟨e, he, hid⟩ := List.mem_map.mp hwatched
    have hold : e ∈ seen ++ w :: unseen := (List.mem_append.mp he).resolve_right fun hx => hnew hx hid
    obtain ⟨i, hi, hik, hread⟩ := h.read e hold
    have ht : isTerminalStatus e.live = false := by
      rw [hread, hid]
      exact Bool.eq_false_iff.mpr (hlive i 0 (by omega) (by omega))
    by_cases hconn : e.live = .connected
    · -- it was read connected and is alive, so it is connected at every reading of this step
      have hstill (j : ℕ) : lib.getsockstate k j b.id = .connected := by
        have hborn : Born F i b.id := ⟨b.step, b.endpoint, h.till.subset (mem_births.mp hb), by omega⟩
        have hupi : Up lib (i + 1) b.id := h.forward.up hborn (hid ▸ hread ▸ hconn)
        exact hupi.connected (by omega) (Bool.eq_false_iff.mpr (hlive k j hbk le_rfl))
      have hchain : b.id ∉ repairChain w := by
        have ha : Accounted (seen ++ w :: (unseen ++ spawned)) k T := by simpa using h.acc
        have hne' : e ≠ w := fun he => hne (by rw [← hid, he])
        refine Ledger.chain_disjoint ha h.once (u := e) ?_ (by simp [hid])
        simp only [List.mem_append, List.mem_cons] at hold ⊢
        tauto
      by_cases hbroken : mapMemberStatus r.memberstate = .broken
      · obtain ⟨j, hj⟩ := not_connected_of_not_otherMemberBrokenLive hbl he (hid ▸ hchain) hr
          (hrid.trans hid.symm) hbroken
        exact hj (hid ▸ hstill j)
      · obtain ⟨j, hj⟩ := not_connected_of_not_otherMemberAtPeer hup hr (hrid ▸ hchain) hbroken
        exact hj (hrid ▸ hstill j)
    · exact hresolved he hid hconn ht
  · exact hlive k 0 hbk le_rfl (hrid ▸ hgone r hr (by rwa [hrid]))

/-- A replacement is the only open member of its endpoint that is not superseded. -/
theorem sole (he : Exit lib inp k seen w unseen spawned seen' unseen' spawned' events) {b b' : Birth}
    (hb : b ∈ births (T ++ events)) (hb' : b' ∈ births events) (ho : b.Open lib kb (T ++ events))
    (hn : b.id ∉ supersededIds (seen' ++ unseen' ++ spawned')) (hep : b.endpoint = b'.endpoint) : b = b' := by
  have hs := mem_births.mp hb'
  obtain ⟨hd, hr⟩ := he.due_of_spawn (List.ne_nil_of_mem (mem_spawnedIds.mpr ⟨_, _, hs⟩))
  obtain ⟨hbep, halone, -, -, hchain⟩ := he.spawn_alone hs
  rcases mem_births_append.mp hb with hold | hb
  · obtain ⟨bw, hbw, hid, hbwep, hk⟩ := h.birth
    obtain ⟨hopen, hfree⟩ := h.birth_open hr hbw hid hk
    -- the chain of the member replaced is closed or superseded
    have hnw : b ≠ bw := by
      rintro rfl
      rcases hchain b.id (by simp [hid]) with hsup | hcl
      · exact hn hsup
      · exact ho.1 (by rw [closedIds_append]; exact List.mem_append_right _ hcl)
    by_cases hborn : kb ≤ b.step
    · obtain ⟨x, hx, hxid⟩ := h.newborn b hold hborn
      obtain ⟨c, hc, hcid, hcep⟩ := h.own x (by simp [hx])
      have hbc : c = b := born_once h.once hc hold (hcid.trans hxid)
      exact absurd (by rw [← hcep, hbc, hep, hbep]) (halone x hx)
    · have hob := ho.mono h.forward (births_subset h.till.subset hold) le_rfl
      have hnb : b.id ∉ supersededIds (seen ++ w :: unseen ++ spawned) := fun hin =>
        (he.superseded_settled hin).elim hn fun hcl =>
          ho.1 (by rw [closedIds_append]; exact List.mem_append_right _ hcl)
      exact absurd (h.single b hold bw hbw hob hopen hnb hfree (by rw [hep, hbep, hbwep])) hnw
  · obtain ⟨hstep, hbep', hid⟩ := he.mem_spawn (mem_births.mp hb)
    obtain ⟨hstep', -, hid'⟩ := he.mem_spawn hs
    have hids : b.id = b'.id := Except.ok.inj (hid.symm.trans hid')
    rw [← hstep'] at hstep
    cases b
    cases b'
    congr

/-- A turn leaves no overlap, or one with two members alive at most. -/
theorem overlap_next (he : Exit lib inp k seen w unseen spawned seen' unseen' spawned' events)
    (hnew : (spawnedIds (T ++ events)).Nodup) :
    (∀ b ∈ births (T ++ events), b.Open lib (k + 1) (T ++ events) →
      b.id ∉ supersededIds (seen' ++ unseen' ++ spawned')) ∨
    (births (T ++ events)).countP (Birth.Open lib (k + 1) (T ++ events)) ≤ 2 := by
  have hopen {b : Birth} (hb : b ∈ births T) (ho : b.Open lib (k + 1) (T ++ events)) : b.Open lib k T :=
    ho.mono h.forward (births_subset h.till.subset hb) (Nat.le_succ k)
  by_cases hover : Overlaps lib inp k seen w unseen spawned
  · -- the member kept and the new one
    right
    have hold : (births T).countP (Birth.Open lib (k + 1) (T ++ events)) ≤ 1 := by
      have hone := List.nodup_iff_count_le_one.mp h.once w.id
      rw [← births_ids, List.count, List.countP_map] at hone
      refine (List.countP_mono_left fun b hb ho => ?_).trans hone
      have ho : b.Open lib (k + 1) (T ++ events) := of_decide_eq_true ho
      refine beq_iff_eq.mpr (by_contra fun hne => ho.2 ?_ ?_)
      · exact (h.steps _ (mem_births.mp hb)).trans (Nat.lt_succ_self k)
      · exact h.others_dead hover hb hne (hopen hb ho).1
    have hborn := he.births_le_one
    have hle : (births events).countP (Birth.Open lib (k + 1) (T ++ events)) ≤ _ := List.countP_le_length
    rw [births_append, List.countP_append]
    omega
  have hsub (id : SocketId) (hid : id ∈ supersededIds (seen' ++ unseen' ++ spawned')) :
      id ∈ supersededIds (seen ++ w :: unseen ++ spawned) := (he.mem_supersededIds hid).resolve_right hover
  by_cases hnone : spawnedIds events = []
  · have hbirths : births (T ++ events) = births T := by
      rw [births_append, List.map_eq_nil_iff.mp ((births_ids events).trans hnone), List.append_nil]
    rw [hbirths]
    refine h.overlap.imp (fun hno b hb ho hin => hno b hb (hopen hb ho) (hsub _ hin)) fun hle => ?_
    refine (List.countP_mono_left fun b hb ho => decide_eq_true ?_).trans hle
    exact hopen hb (of_decide_eq_true ho)
  · -- a replacement, with no overlap open
    left
    obtain ⟨hd, hn⟩ := he.due_of_spawn hnone
    obtain ⟨new, hmem⟩ := List.exists_mem_of_ne_nil _ hnone
    obtain ⟨i, ep, hs⟩ := mem_spawnedIds.mp hmem
    have hsettled := (h.may_replace hd hn).1 (he.spawn_alone hs).2.2.1
    intro b hb ho hin
    obtain ⟨e, hmem, hsup⟩ := mem_supersededIds.mp (hsub _ hin)
    rcases mem_births_append.mp hb with hold | hb
    · exact (hopen hold ho).2 (h.steps _ (mem_births.mp hold)) (hsettled e hmem b.id hsup)
    · have hspawned := h.acc.mem_spawnedIds hmem (mem_repairChain.mpr (.inl hsup))
      rw [spawnedIds_append] at hnew
      exact (List.nodup_append'.mp hnew).2.2 hspawned (mem_spawnedIds.mpr ⟨_, _, mem_births.mp hb⟩)

theorem next (he : Exit lib inp k seen w unseen spawned seen' unseen' spawned' events)
    (hnew : (spawnedIds (T ++ events)).Nodup) :
    Bonding lib grp endpoints kb k₀ inp seen' unseen' spawned' (k + 1) (T ++ events) := by
  have hlisted := h.listed
  have hborn (b : Birth) (hb : b ∈ births events) : b.endpoint ∈ endpoints := by
    obtain ⟨bw, hbw, -, hep, -⟩ := h.birth
    rw [(he.mem_spawn (mem_births.mp hb)).2.1, ← hep]
    exact h.born bw hbw
  have hbonded : Bonded lib endpoints kb (k + 1) (seen' ++ unseen' ++ spawned') (T ++ events) := by
    refine h.toBonded.next h.forward h.till.subset le_rfl (by omega) (Nat.le_succ k)
      (fun e hmem => he.step_eq e hmem ▸ Nat.lt_succ_self k) hborn (fun v hv => ?_)
      (fun id hid => he.superseded_settled hid)
      (fun b hb b' hb' ho hn hep => h.sole he hb hb' ho hn hep) (h.overlap_next he hnew)
    rcases List.mem_append.mp hv with hv | hv
    · obtain ⟨u, hu, hid, hep⟩ := he.source hv
      exact .inl ⟨u, by simp only [List.mem_append, List.mem_cons] at hu ⊢; tauto, hid.symm, hep.symm⟩
    · rcases he.mem_spawned hv with ⟨u, hu, hp⟩ | ⟨hr, hspawn⟩
      · exact .inl ⟨u, by simp [hu], hp.same_member.1.symm, hp.same_member.2.1.symm⟩
      · refine .inr ⟨⟨k, v.id, w.endpoint⟩, mem_births.mpr hspawn, rfl, ?_⟩
        cases hr <;> rfl
  refine ⟨hbonded, ⟨hlisted.1, hlisted.2.trans (Nat.lt_succ_self k)⟩, h.rows, fun v hv => ?_, fun b hb hk => ?_,
    fun x hx => ?_⟩
  · have hpass {u : WatchedMember} (hu : u ∈ seen ++ unseen) (hp : Passed lib inp k seen w unseen spawned u v) :
        ∃ i, kb ≤ i ∧ i < k₀ ∧ v.live = lib.status i 0 v.id := by
      rw [hp.same_member.1, hp.same_member.2.2.1]
      exact h.read u (by simp only [List.mem_append, List.mem_cons] at hu ⊢; tauto)
    rcases List.mem_append.mp hv with hv | hv
    · rcases he.origins.1 v hv with ⟨u, hu, hp⟩ | hk
      · exact hpass (by simp [hu]) hp
      · rw [hk.id_eq, hk.live_eq]
        exact h.read w (by simp)
    · obtain ⟨u, hu, hp⟩ := he.origins.2.1 v hv
      exact hpass (by simp [hu]) hp
  · rcases mem_births_append.mp hb with hold | hb
    · obtain ⟨x, hx, hid⟩ := h.newborn b hold hk
      obtain ⟨v, hv, hp⟩ := he.spawned_stay hx
      exact ⟨v, hv, hp.same_member.1.trans hid⟩
    · obtain ⟨-, -, -, ⟨x, hx, hid, -⟩, -⟩ := he.spawn_alone (mem_births.mp hb)
      exact ⟨x, hx, hid⟩
  · rcases he.origins.2.2 x hx with ⟨u, hu, hp⟩ | hr
    · rw [hp.same_member.2.2.1]
      exact h.fresh u hu
    · cases hr <;> rfl

end BondTurn

section Readings

variable {lib : Libsrt} {endpoints : List GroupEndpoint} {T events F : List MemberEvent} {k kb i : ℕ}
  {ws : List WatchedMember}

theorem doneBefore_append (h : ∀ e ∈ events, i ≤ e.step) : doneBefore i (T ++ events) = doneBefore i T := by
  have hnone : events.filter (fun e => e.step < i) = [] :=
    List.filter_eq_nil_iff.mpr fun e he => by simpa using h e he
  rw [doneBefore, List.filter_append, hnone, List.append_nil, doneBefore]

theorem doneBefore_of_steps (h : ∀ e ∈ T, e.step < i) : doneBefore i T = T :=
  List.filter_eq_self.mpr fun e he => decide_eq_true (h e he)

/-- No reading before step `k` shows more members at the peer than the bond has, or two. -/
def BoundTo (lib : Libsrt) (n k : ℕ) (T : List MemberEvent) : Prop :=
  ∀ i < k, ∀ j, (membersAtPeer lib i j T).length ≤ max n 2

/-- While a bond is kept, nothing done later shows in its readings. -/
theorem Bonded.boundTo (h : Bonded lib endpoints kb k ws T) (hb : BoundTo lib endpoints.length k T)
    (hn : (spawnedIds T).Nodup) (hw : Forward lib F) (hT : T ⊆ F) {k' : ℕ}
    (hs : ∀ e ∈ events, k' ≤ e.step + 1) : BoundTo lib endpoints.length k' (T ++ events) := by
  intro i hi j
  have hsame : doneBefore i (T ++ events) = doneBefore i T := doneBefore_append fun e he => by
    have := hs e he
    omega
  rcases lt_or_ge i k with hlt | hge
  · have hold := hb i hlt j
    rwa [membersAtPeer, ← hsame] at hold
  · have hall := doneBefore_of_steps fun e he => (h.steps e he).trans_le hge
    rw [membersAtPeer, hsame, hall, ← List.countP_eq_length_filter]
    exact h.bound hn hw hT hge j

end Readings

section Runs

variable {lib : Libsrt} {grp : SocketId} {endpoints : List GroupEndpoint} {F : List MemberEvent}

/-- When nothing listed carries an endpoint in flight, and what is listed Broken is dead, no member
of the endpoint is alive. -/
theorem dead_of_memberInFlight_none {k : ℕ} {T : List MemberEvent} (hw : Forward lib F)
    (hl : StaysListed lib grp F) (hF : Until F (k + 1) T) {token : ℤ}
    (hf : memberInFlight lib k 1 (readGroupRows lib k 0 grp) token [] = none)
    (hbroken : ∀ row ∈ readGroupRows lib k 0 grp, row.token = token →
      mapMemberStatus row.memberstate = .broken → DeadAt lib k row.id)
    {b : Birth} (hb : b ∈ births T) (hk : b.step < k) (ht : b.endpoint.token = token)
    (hc : b.id ∉ closedIds T) : DeadAt lib (k + 1) b.id := by
  have hbF := births_subset hF.subset hb
  have hdead {i j : ℕ} (hbi : b.step < i) (hi : i ≤ k) (h : isTerminalStatus (lib.status i j b.id) = true) :
      DeadAt lib (k + 1) b.id := by
    by_contra halive
    exact hw.not_deadAt hbF hbi (by omega) halive j (.inl (by omega)) h
  rcases hl b.step b.id b.endpoint (mem_births.mp hbF) k 0 hk with ⟨r, hr, hid, htok⟩ | ⟨i, hi, hcl⟩ |
    ⟨i, hi, hbi, j, h⟩
  · by_cases hbr : mapMemberStatus r.memberstate = .broken
    · exact hdead hk le_rfl (hid ▸ hbroken r hr (htok.trans ht) hbr)
    · obtain ⟨j, hj⟩ := memberInFlight_none hf hr (htok.trans ht) List.not_mem_nil hbr
      exact hdead hk le_rfl (hid ▸ hj)
  · exact absurd (hF.mem_closedIds (Nat.lt_succ_of_le hi) hcl) hc
  · exact hdead hbi hi h

/-- A re-add that meets its condition adds a member to an endpoint without an open one, and there is no
overlap. -/
theorem Bonded.add {r : GroupRun} {ep : GroupEndpoint} {member : SocketId}
    (h : Bonded lib endpoints r.step r.step r.entry.watched r.trace) (hw : Forward lib F)
    (hl : StaysListed lib grp F) (hF : Until F (r.step + 1) (r.trace ++ [.spawn r.step member ep]))
    (hn : (spawnedIds (r.trace ++ [.spawn r.step member ep])).Nodup)
    (hacc : Accounted r.entry.watched r.step r.trace) (hm : AddMeets lib grp endpoints r ep)
    (hf : memberInFlight lib r.step 1 (readGroupRows lib r.step 0 grp) ep.token [] = none) :
    Bonded lib endpoints (r.step + 1) (r.step + 1)
      (r.entry.watched ++ [.spawned lib r.step member ep r.clock]) (r.trace ++ [.spawn r.step member ep]) := by
  obtain ⟨hmem, hmeets⟩ := hm
  obtain ⟨hnone, hbroken⟩ := hmeets hf
  have hsup : supersededIds (r.entry.watched ++ [.spawned lib r.step member ep r.clock]) =
      supersededIds r.entry.watched := by simp [supersededIds]
  have hbirth : births [.spawn r.step member ep] = [⟨r.step, member, ep⟩] := rfl
  have hstep {b : Birth} (hb : b ∈ births r.trace) : b.step < r.step := h.steps _ (mem_births.mp hb)
  refine h.next hw (fun e he => hF.subset (List.mem_append_left _ he)) (Nat.le_succ _) le_rfl (Nat.le_succ _)
    (by simp [MemberEvent.step]) (by simpa [hbirth] using hmem) (fun w hw => ?_)
    (fun id hid => .inl (hsup ▸ hid)) (fun b hb b' hb' ho _ hep => ?_) (.inl fun b hb ho hin => ?_)
  · rcases List.mem_append.mp hw with hw | hw
    · exact .inl ⟨w, hw, rfl, rfl⟩
    · obtain rfl := List.mem_singleton.mp hw
      exact .inr ⟨⟨r.step, member, ep⟩, by simp [hbirth], rfl, rfl⟩
  · obtain rfl := List.mem_singleton.mp (hbirth ▸ hb')
    rcases mem_births_append.mp hb with hold | hnew
    · refine absurd ?_ (ho.2 ((hstep hold).trans (Nat.lt_succ_self _)))
      exact dead_of_memberInFlight_none hw hl hF hf hbroken hb (hstep hold) (congrArg _ hep) ho.1
    · exact List.mem_singleton.mp (hbirth ▸ hnew)
  · obtain ⟨v, hv, hid⟩ := mem_supersededIds.mp (hsup ▸ hin)
    rcases mem_births_append.mp hb with hold | hnew
    · have hlt := hstep hold
      refine hw.not_deadAt (births_subset hF.subset hb) hlt (Nat.le_succ _) (ho.2 (hlt.trans (Nat.lt_succ_self _)))
        0 (.inl (Nat.lt_succ_self _)) (hnone v hv b.id hid)
    · obtain rfl := List.mem_singleton.mp (hbirth ▸ hnew)
      have hspawned := hacc.mem_spawnedIds hv (mem_repairChain.mpr (.inl hid))
      rw [spawnedIds_append] at hn
      exact (List.nodup_append'.mp hn).2.2 hspawned (List.mem_singleton.mpr rfl)

/-- What is kept between two actions of a run that comes to the history `F`. -/
def Bounded (lib : Libsrt) (endpoints : List GroupEndpoint) (F : List MemberEvent)
    (ws : List WatchedMember) (_now : Instant) (k : ℕ) (T : List MemberEvent) : Prop :=
  Accounted ws k T ∧ (Until F k T → Bonded lib endpoints k k ws T ∧ BoundTo lib endpoints.length k T)

theorem Bonded.rest {kb k k' : ℕ} {ws ws' : List WatchedMember} {T : List MemberEvent}
    (h : Bonded lib endpoints kb k ws T) (hb : BoundTo lib endpoints.length k T) (hw : Forward lib F)
    (hT : T ⊆ F) (hn : (spawnedIds T).Nodup) (hk : k ≤ k')
    (hown : ∀ w ∈ ws', ∃ v ∈ ws, v.id = w.id ∧ v.endpoint = w.endpoint)
    (hsup : ∀ id, id ∈ supersededIds ws' ↔ id ∈ supersededIds ws) :
    Bonded lib endpoints k' k' ws' T ∧ BoundTo lib endpoints.length k' T := by
  refine ⟨h.later hw hT (h.begun.trans hk) le_rfl hk hown hsup, ?_⟩
  rw [← List.append_nil T]
  exact h.boundTo hb hn hw hT (by simp)

section Act

variable (hn : (spawnedIds F).Nodup) (hw : Forward lib F)
include hn hw

theorem Bounded.skip {ws : List WatchedMember} {now : Instant} {k : ℕ} {T : List MemberEvent}
    (h : Bounded lib endpoints F ws now k T) : Bounded lib endpoints F ws now (k + 1) T := by
  refine ⟨h.1.later rfl, fun hF => ?_⟩
  obtain ⟨hbond, hb⟩ := h.2 (hF.mono (Nat.le_succ k))
  exact hbond.rest hb hw hF.subset (hF.nodup hn) (Nat.le_succ k) (fun w hw => ⟨w, hw, rfl, rfl⟩)
    fun _ => Iff.rfl

variable (hl : StaysListed lib grp F)
include hl

theorem Bounded.addGroupMember {r : GroupRun} {ep : GroupEndpoint} (h : r.Holds (Bounded lib endpoints F))
    (hm : AddMeets lib grp endpoints r ep) :
    (r.addGroupMember lib grp ep).2.Holds (Bounded lib endpoints F) := by
  refine GroupRun.holds_addGroupMember h.1 (h.2.skip hn hw) fun member hf hc => ?_
  refine ⟨(accounted_preserved lib grp).add trivial h.2.1 hf hc, fun hF => ?_⟩
  have hstep : ∀ e ∈ [MemberEvent.spawn r.step member ep], e.step = r.step := by simp [MemberEvent.step]
  have hT := hF.of_append (Nat.le_succ r.step) fun e he => (hstep e he).ge
  obtain ⟨hbond, hb⟩ := h.2.2 hT
  refine ⟨hbond.add hw hl hF (hF.nodup hn) h.2.1 hm hf, ?_⟩
  exact hbond.boundTo hb (hT.nodup hn) hw hT.subset fun e he => by rw [hstep e he]

/-- A check all of whose replacements meet their condition. -/
theorem Bounded.checkGroup {r : GroupRun} (h : r.Holds (Bounded lib endpoints F))
    (hm : ∀ n < r.entry.watched.length, TurnMeets lib (r.checkInput lib grp) (r.turns lib grp n)) :
    (r.checkGroup lib grp).Holds (Bounded lib endpoints F) := by
  have ha := accounted_preserved lib grp
  have hbegin : Accounted ([] ++ readLive lib r.step r.entry.watched ++ [])
      (r.step + r.entry.watched.length + 1) r.trace := @Preserved.begin _ _ _ _ _ ha _ _ _ _
    (r.checkInput lib grp) h.2.1 rfl rfl rfl
  refine GroupRun.holds_checkGroup h (Q := fun seen unseen spawned k T =>
    Accounted (seen ++ unseen ++ spawned) k T ∧ (Until F k T →
      Bonding lib grp endpoints r.step (r.step + r.entry.watched.length) (r.checkInput lib grp) seen unseen
        spawned k T ∧ BoundTo lib endpoints.length k T)) ⟨hbegin, fun hF => ?_⟩ ?_ ?_
  · -- the live states have been read
    obtain ⟨hbond, hb⟩ := h.2.2 (hF.mono (by omega))
    have hold (b : Birth) (hb : b ∈ births r.trace) : b.step < r.step := hbond.steps _ (mem_births.mp hb)
    have hown (w : WatchedMember) (hw : w ∈ readLive lib r.step r.entry.watched) :
        ∃ v ∈ r.entry.watched, v.id = w.id ∧ v.endpoint = w.endpoint := by
      obtain ⟨v, hv, i, -, -, rfl⟩ := mem_readLive hw
      exact ⟨v, hv, rfl, rfl⟩
    refine ⟨⟨?_, by omega, rfl, fun v hv => ?_, fun b hb hk => ?_, by simp⟩, ?_⟩
    · simpa using hbond.later hw hF.subset le_rfl (by omega) (by omega) hown
        fun id => by rw [supersededIds_readLive]
    · obtain ⟨u, -, i, hi, hlt, rfl⟩ := mem_readLive (by simpa using hv)
      exact ⟨i, hi, hlt, rfl⟩
    · exact absurd (hold b hb) (not_lt.mpr hk)
    · rw [← List.append_nil r.trace]
      exact hbond.boundTo hb (hF.nodup hn) hw hF.subset (by simp)
  · intro n seen w unseen spawned k T seen' unseen' spawned' events hlt hc hq he
    refine ⟨@Preserved.turn _ _ _ _ _ ha (r.checkInput lib grp) _ _ _ _ _ _ _ _ _ _ hq.1 he, fun hF => ?_⟩
    have hT := hF.of_append (Nat.le_succ k) fun e hmem => (he.step_eq e hmem).ge
    obtain ⟨hbond, hb⟩ := hq.2 hT
    have hturn : BondTurn lib grp endpoints F r.step (r.step + r.entry.watched.length) (r.checkInput lib grp)
        seen w unseen spawned k T :=
      { hbond with
        forward := hw
        lists := hl
        till := hT
        once := hT.nodup hn
        acc := hq.1
        meets := hc ▸ hm n hlt }
    refine ⟨hturn.next he (hF.nodup hn), ?_⟩
    exact hbond.boundTo hb (hT.nodup hn) hw hT.subset fun e hmem => by rw [he.step_eq e hmem]
  · intro ws spawned k T hq
    refine ⟨hq.1.later (by simp), fun hF => ?_⟩
    obtain ⟨hbond, hb⟩ := hq.2 (hF.mono (Nat.le_succ k))
    exact hbond.rest hb hw hF.subset (hF.nodup hn) (Nat.le_succ k)
      (fun w hw => ⟨w, by simpa using hw, rfl, rfl⟩) fun id => by simp

/-- What the bond's members do, as long as it is within the conditions, keeps it. -/
theorem Bounded.act {r : GroupRun} {a : Action} (h : r.Holds (Bounded lib endpoints F))
    (hm : ActionMeets lib grp endpoints r a) :
    (act lib grp r a).Holds (Bounded lib endpoints F) := by
  cases a with
  | elapse d => exact h
  | connect => exact hm.elim
  | add ep => exact Bounded.addGroupMember hn hw hl h hm
  | check => exact Bounded.checkGroup hn hw hl h hm
  | reorder watched =>
    simp only [GroupRun.act]
    split_ifs with hp
    · refine ⟨h.1, (accounted_preserved lib grp).reorder r.clock hp h.2.1, fun hF => ?_⟩
      obtain ⟨hbond, hb⟩ := h.2.2 hF
      exact hbond.rest hb hw hF.subset (hF.nodup hn) le_rfl (fun w hw => ⟨w, hp.mem_iff.mp hw, rfl, rfl⟩)
        fun id => ⟨supersededIds_perm hp.symm, supersededIds_perm hp⟩
    · exact h
  | status status => exact ⟨by simpa [GroupRun.act] using h.1, by simpa [GroupRun.act] using h.2⟩

end Act

theorem births_spawnEvents (k : ℕ) (members : List (GroupEndpoint × SocketId)) :
    births (spawnEvents k members) = members.map fun e => ⟨k, e.2, e.1⟩ := by
  induction members with
  | nil => rfl
  | cons e es ih => exact congrArg (⟨k, e.2, e.1⟩ :: ·) ih

/-- The connect call spawns at most one member per endpoint. -/
theorem bonded_connect {members : List (GroupEndpoint × SocketId)} (now : Instant) (hd : endpoints.Nodup)
    (hsub : (members.map Prod.fst).Sublist endpoints) :
    Bonded lib endpoints 1 1 (watchSpawned lib 0 now members) (spawnEvents 0 members) := by
  have hmem {b : Birth} (hb : b ∈ births (spawnEvents 0 members)) : ∃ e ∈ members, b = ⟨0, e.2, e.1⟩ := by
    rw [births_spawnEvents] at hb
    obtain ⟨e, he, rfl⟩ := List.mem_map.mp hb
    exact ⟨e, he, rfl⟩
  have hnone : supersededIds (watchSpawned lib 0 now members) = [] := by
    rw [supersededIds, watchSpawned, List.flatMap_map]
    exact List.flatMap_eq_nil_iff.mpr fun e _ => rfl
  refine ⟨le_rfl, fun e he => ?_, fun b hb => ?_, fun w hw => ?_, fun b hb b' hb' _ _ _ _ hep => ?_,
    .inl fun b _ _ => by rw [hnone]; exact List.not_mem_nil⟩
  · obtain ⟨m, -, rfl⟩ := List.mem_map.mp he
    exact Nat.zero_lt_one
  · obtain ⟨e, he, rfl⟩ := hmem hb
    exact hsub.subset (List.mem_map_of_mem he)
  · obtain ⟨e, he, rfl⟩ := List.mem_map.mp hw
    exact ⟨⟨0, e.2, e.1⟩, by rw [births_spawnEvents]; exact List.mem_map_of_mem he, rfl, rfl⟩
  · obtain ⟨e, he, rfl⟩ := hmem hb
    obtain ⟨e', he', rfl⟩ := hmem hb'
    rw [List.inj_on_of_nodup_map (hd.sublist hsub) he he' hep]

theorem bounded_connect (backup : Bool) (hd : endpoints.Nodup) :
    ((start backup).connect lib grp endpoints).2.Holds (Bounded lib endpoints F) := by
  have hacc : ((start backup).connect lib grp endpoints).2.Holds _ :=
    (accounted_preserved lib grp).holds_connect trivial (accounted_start backup)
  have hfirst (T : List MemberEvent) : BoundTo lib endpoints.length 1 T := by
    intro i hi j
    obtain rfl : i = 0 := by omega
    have hnone : doneBefore 0 T = [] := List.filter_eq_nil_iff.mpr fun e _ => by simp
    rw [membersAtPeer, hnone]
    exact Nat.zero_le _
  refine ⟨hacc.1, hacc.2, fun _ => ?_⟩
  cases hr : (connectGroup lib 0 0 grp endpoints).refused with
  | some err =>
    have hnil : Bonded lib endpoints 1 1 (watchSpawned lib 0 0 []) (spawnEvents 0 []) :=
      bonded_connect 0 hd (List.nil_sublist _)
    simp only [GroupRun.connect, start, hr]
    exact ⟨hnil, hfirst _⟩
  | none =>
    simp only [GroupRun.connect, start, hr]
    exact ⟨bonded_connect 0 hd (spawnedMembers_endpoints ..), hfirst _⟩

/-- The peer never lists more members than the bond has, or two where the bond has one,
as long as no member is replaced or added again beside an overlap, or beside a member of
the endpoint that the plan does not weigh. -/
theorem peerBound_kept (lib : Libsrt) (grp : SocketId) (backup : Bool) (endpoints : List GroupEndpoint)
    (hd : (endpoints.map GroupEndpoint.token).Nodup) (actions : List Action) :
    let r₀ := ((start backup).connect lib grp endpoints).2
    let T := (r₀.run lib grp actions).trace
    (spawnedIds T).Nodup → Forward lib T → StaysListed lib grp T →
      Along (act lib grp) (ActionMeets lib grp endpoints) r₀ actions → PeerBound lib endpoints.length T := by
  intro r₀ T hn hw hl hm i j
  have hrun : (r₀.run lib grp actions).Holds (Bounded lib endpoints T) :=
    hm.invariant (fun r a hok h => Bounded.act hn hw hl h hok) (bounded_connect backup hd.of_map)
  obtain ⟨hbond, hb⟩ := hrun.2.2 ⟨[], by simp [T], by simp⟩
  have hall := @Bonded.boundTo _ _ _ [] _ _ _ _ hbond hb hn hw (List.Subset.refl T) (i + 1) (by simp)
  exact List.append_nil T ▸ hall i (Nat.lt_succ_self i) j

end Runs

section Scripts

variable {listing : ℕ → List GroupData} {state : ℕ → SocketId → SockState} {grp : SocketId}
  {T : List MemberEvent}

/-- The members of a script that lists them from the step after their spawn on, until they are closed. -/
theorem staysListed_scripted {bs : List Birth} (hT : births T = bs)
    (h : ∀ b ∈ bs, ∀ k, b.step < k → (∃ r ∈ listing k, r.id = b.id ∧ r.token = b.endpoint.token) ∨
      ∃ i ≤ k, .close i b.id ∈ T) :
    StaysListed (.scripted listing state) grp T := by
  intro b id ep hs k _ hk
  exact (h ⟨b, id, ep⟩ (hT ▸ mem_births.mpr hs) k hk).imp_right .inl

/-- A bond of one link whose replacement is stranded too: the second overlap puts
three connected members at the peer. -/
theorem peerBound_stranded_twice :
    let ep : GroupEndpoint := ⟨.v4 0x7f000001 9000, none, 1, 7⟩
    let lib := Libsrt.scripted
      (fun k => ⟨1, .connected, .pending, 1, 7⟩ :: if k < 8 then [] else
        ⟨8, .connected, .pending, 1, 7⟩ :: if k < 16 then [] else [⟨16, .connected, .pending, 1, 7⟩])
      fun _ _ => .connected
    let actions : List Action := [.check, .elapse (fromMillis 500), .check,
      .elapse (fromMillis 100), .check, .elapse (fromMillis 500), .check]
    let T := (((start false).connect lib 5 [ep]).2.run lib 5 actions).trace
    (spawnedIds T).Nodup ∧ Forward lib T ∧ StaysListed lib 5 T ∧ ([ep].map GroupEndpoint.token).Nodup ∧
      (∀ a ∈ actions, a = .check ∨ ∃ d, a = .elapse d) ∧ ¬PeerBound lib [ep].length T := by
  intro ep lib actions T
  have hbirths : births T = [⟨0, 1, ep⟩, ⟨7, 8, ep⟩, ⟨15, 16, ep⟩] := by decide +kernel
  have hthree : (membersAtPeer lib 16 0 T).length = 3 := by decide +kernel
  refine ⟨by decide +kernel, forward_scripted fun _ _ _ _ => le_rfl, staysListed_scripted hbirths ?_,
    by decide, by simp [actions], fun h => absurd (h 16 0) (by rw [hthree]; decide)⟩
  intro b hb k hk
  simp only [List.mem_cons, List.not_mem_nil, or_false] at hb
  rcases hb with rfl | rfl | rfl
  · exact .inl ⟨_, List.mem_cons_self .., rfl, rfl⟩
  · have hk : 7 < k := hk
    simp [show ¬k < 8 by omega, ep]
  · have hk : 15 < k := hk
    simp [show ¬k < 8 by omega, show ¬k < 16 by omega, ep]

/-- A bond of one link: an overlap, the close of the old member once the new one is up, and the
link's re-add when that has broken. -/
theorem peerBound_kept_one_link :
    let ep : GroupEndpoint := ⟨.v4 0x7f000001 9000, none, 1, 7⟩
    let lib := Libsrt.scripted
      (fun k => if k < 8 then [⟨1, .connected, .pending, 1, 7⟩]
        else if k < 17 then [⟨1, .connected, .pending, 1, 7⟩, ⟨8, .connected, .running, 1, 7⟩]
        else ⟨8, .connected, .broken, 1, 7⟩ :: if k < 18 then [] else [⟨18, .connected, .pending, 1, 7⟩])
      fun k id => if id = 8 ∧ 17 ≤ k then .broken else .connected
    let actions : List Action := [.check, .elapse (fromMillis 500), .check,
      .elapse (fromMillis 100), .check, .elapse (fromMillis 1000), .check, .add ep]
    let T := (((start false).connect lib 5 [ep]).2.run lib 5 actions).trace
    spawnedIds T = [1, 8, 18] ∧ closedIds T = [1] ∧ PeerBound lib [ep].length T := by
  intro ep lib actions T
  have hbirths : births T = [⟨0, 1, ep⟩, ⟨7, 8, ep⟩, ⟨17, 18, ep⟩] := by decide +kernel
  have hclosed : .close 15 1 ∈ T := by decide +kernel
  have hforward : Forward lib T := forward_scripted fun id k k' hk => by
    dsimp only
    split_ifs with h h'
    · exact le_rfl
    · exact absurd ⟨h.1, h.2.trans hk⟩ h'
    · decide
    · exact le_rfl
  have hlisted : StaysListed lib 5 T := staysListed_scripted hbirths fun b hb k hk => by
    simp only [List.mem_cons, List.not_mem_nil, or_false] at hb
    rcases hb with rfl | rfl | rfl
    · by_cases hlt : k < 17
      · by_cases h8 : k < 8 <;> simp [hlt, h8, ep]
      · exact .inr ⟨15, by omega, hclosed⟩
    · have hk : 7 < k := hk
      by_cases hlt : k < 17 <;> simp [show ¬k < 8 by omega, hlt, ep]
    · have hk : 17 < k := hk
      simp [show ¬k < 8 by omega, show ¬k < 17 by omega, show ¬k < 18 by omega, ep]
  exact ⟨by decide +kernel, by decide +kernel,
    peerBound_kept lib 5 false [ep] (by decide) actions (by decide +kernel) hforward hlisted (by decide +kernel)⟩

end Scripts

end SrtBridge
