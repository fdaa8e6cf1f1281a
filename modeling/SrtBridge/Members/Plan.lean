import SrtBridge.Members.Watched

/-! How a member found stranded is replaced. The peer must never list more
members than the bond has, nor none: what the rest of the group shows decides
whether the stranded member is closed first, overlaps its replacement, or waits. -/

namespace SrtBridge

/-- Pending, Idle or Running, on a socket that is not dead. -/
def inFlight (member : MemberStatus) (live : SocketStatus) : Bool :=
  (member = .pending || member = .idle || member = .running) && !isTerminalStatus live

theorem inFlight_iff {member : MemberStatus} {live : SocketStatus} :
    inFlight member live = true ↔ member ≠ .broken ∧ isTerminalStatus live = false := by
  cases member <;> simp [inFlight]

/-- A listed member carrying `token`, other than those in `exclude`, that is in
flight. Row `i` is read by the call numbered `j + i` of step `k`. -/
def memberInFlight (lib : Libsrt) (k j : ℕ) (rows : List GroupData) (token : ℤ)
    (exclude : List SocketId) : Option SocketId :=
  (rows.zipIdx.find? fun r => r.1.token = token ∧ r.1.id ∉ exclude ∧
    inFlight (mapMemberStatus r.1.memberstate) (lib.status k (j + r.2) r.1.id)).map (·.1.id)

inductive RepairPlan where
  | closeNow
  | joinSibling (other : SocketId)
  | handToSibling (other : SocketId)
  | closeThenSpawn
  | spawnThenClose
  | wait
  deriving DecidableEq, Repr

def repairPlan (repairs : ℕ) (sibling : Option (SocketId × Bool))
    (othersAtPeer othersResolving : Bool) : RepairPlan :=
  match sibling with
  | some (id, false) => .joinSibling id
  | none =>
    if maxStrandedRepairs ≤ repairs then .closeNow
    else if othersAtPeer then .closeThenSpawn
    else if othersResolving then .wait
    else .spawnThenClose
  | some (id, true) =>
    if othersAtPeer then .joinSibling id
    else if othersResolving then .wait
    else .handToSibling id

/-- Another member is up at the peer, and another is resolving, for a member that
is or is not itself listed Broken on a connected socket. -/
def weighOthers (broken up brokenLive handshaking : Bool) : Bool × Bool :=
  (up || (broken && brokenLive), handshaking || (!broken && brokenLive))

/-- Listed anything but Broken, on a socket that is connected. -/
def atPeer (member : MemberStatus) (live : SocketStatus) : Bool :=
  member ≠ .broken && live = .connected

/-- Whether a listed member outside `exclude` is up at the peer, its socket read now. -/
def otherMemberAtPeer (lib : Libsrt) (k j : ℕ) (rows : List GroupData)
    (exclude : List SocketId) : Bool :=
  rows.zipIdx.any fun r => r.1.id ∉ exclude &&
    atPeer (mapMemberStatus r.1.memberstate) (lib.status k (j + r.2) r.1.id)

/-- Whether a watched member outside `exclude` is listed Broken on a connected socket. -/
def otherMemberBrokenLive (lib : Libsrt) (k j : ℕ) (members : List WatchedMember)
    (rows : List GroupData) (exclude : List SocketId) : Bool :=
  members.zipIdx.any fun e => e.1.id ∉ exclude &&
    rows.any (fun r => r.id = e.1.id && mapMemberStatus r.memberstate = .broken) &&
    lib.getsockstate k (j + e.2) e.1.id = .connected

/-- Whether a watched member outside `exclude` is still in its handshake. -/
def otherMemberHandshaking (members : List WatchedMember) (exclude : List SocketId)
    (now : Instant) : Bool :=
  members.any fun e => e.id ∉ exclude && e.live ≠ .connected && !isTerminalStatus e.live &&
    decide (now < e.resolveBy)

/-- The members a repair of `w` closes. -/
def repairChain (w : WatchedMember) : List SocketId := w.supersedes ++ [w.id]

@[simp] theorem mem_repairChain {w : WatchedMember} {id : SocketId} :
    id ∈ repairChain w ↔ id ∈ w.supersedes ∨ id = w.id := by
  simp [repairChain]

/-- Another carrier of the endpoint of `w`, and whether the bridge still watches it:
a replacement spawned earlier in this check, else a listed member in flight. -/
def findSibling (lib : Libsrt) (k : ℕ) (w : WatchedMember) (watched spawned : List WatchedMember)
    (rows : List GroupData) : Option (SocketId × Bool) :=
  match spawned.find? (fun e => e.endpoint.token = w.endpoint.token) with
  | some e => some (e.id, true)
  | none => (memberInFlight lib k 0 rows w.endpoint.token (repairChain w)).map fun id =>
      (id, (watched ++ spawned).any (fun e => e.id = id))

/-- The plan for `w`, which is still in `watched`, at step `k`; `broken`: it is
listed Broken on a connected socket. `spawned` holds the replacements spawned
earlier in this check, which `rows` does not list. -/
def planRepair (lib : Libsrt) (k : ℕ) (w : WatchedMember) (broken : Bool)
    (watched spawned : List WatchedMember) (rows : List GroupData) (now : Instant) : RepairPlan :=
  let chain := repairChain w
  let others := weighOthers broken
    (otherMemberAtPeer lib k rows.length rows chain)
    (otherMemberBrokenLive lib k (2 * rows.length) (watched ++ spawned) rows chain)
    (otherMemberHandshaking (watched ++ spawned) chain now)
  repairPlan w.repairs (findSibling lib k w watched spawned rows) others.1 others.2

section InFlight

variable {lib : Libsrt} {k j : ℕ} {rows : List GroupData} {token : ℤ} {exclude : List SocketId}

theorem memberInFlight_some {id : SocketId}
    (h : memberInFlight lib k j rows token exclude = some id) :
    ∃ r ∈ rows, ∃ i, r.id = id ∧ r.token = token ∧ id ∉ exclude ∧
      mapMemberStatus r.memberstate ≠ .broken ∧
      isTerminalStatus (lib.status k i id) = false := by
  simp only [memberInFlight, Option.map_eq_some_iff] at h
  obtain ⟨⟨r, i⟩, hf, rfl⟩ := h
  have hp := List.find?_some hf
  simp only [decide_eq_true_eq, inFlight_iff] at hp
  exact ⟨r, List.fst_mem_of_mem_zipIdx (List.mem_of_find?_eq_some hf), j + i, rfl, hp.1, hp.2.1,
    hp.2.2.1, hp.2.2.2⟩

theorem memberInFlight_none (h : memberInFlight lib k j rows token exclude = none)
    {r : GroupData} (hr : r ∈ rows) (ht : r.token = token) (he : r.id ∉ exclude)
    (hb : mapMemberStatus r.memberstate ≠ .broken) :
    ∃ i, isTerminalStatus (lib.status k i r.id) = true := by
  simp only [memberInFlight, Option.map_eq_none_iff, List.find?_eq_none] at h
  obtain ⟨i, hi, hri⟩ := List.getElem_of_mem hr
  have hp := h (r, i) (by rw [List.mem_zipIdx_iff_getElem?]; simp [hi, hri])
  simp only [ht, he, not_false_eq_true, true_and, decide_eq_true_eq, inFlight_iff, hb, ne_eq,
    Bool.not_eq_false] at hp
  exact ⟨j + i, by simpa using hp⟩

end InFlight

section Others

variable {lib : Libsrt} {k j : ℕ} {rows : List GroupData} {exclude : List SocketId}

theorem exists_of_otherMemberAtPeer (h : otherMemberAtPeer lib k j rows exclude = true) :
    ∃ r ∈ rows, r.id ∉ exclude ∧ mapMemberStatus r.memberstate ≠ .broken ∧
      ∃ i, lib.getsockstate k i r.id = .connected := by
  simp only [otherMemberAtPeer, List.any_eq_true, Bool.and_eq_true, decide_eq_true_eq, atPeer] at h
  obtain ⟨⟨r, i⟩, hm, he, hb, hc⟩ := h
  exact ⟨r, List.fst_mem_of_mem_zipIdx hm, he, by simpa using hb, j + i,
    rawStateToStatus_eq_connected.mp hc⟩

theorem not_connected_of_not_otherMemberAtPeer (h : otherMemberAtPeer lib k j rows exclude = false)
    {r : GroupData} (hr : r ∈ rows) (he : r.id ∉ exclude) (hb : mapMemberStatus r.memberstate ≠ .broken) :
    ∃ i, lib.getsockstate k i r.id ≠ .connected := by
  simp only [otherMemberAtPeer, List.any_eq_false, Bool.and_eq_true, decide_eq_true_eq, atPeer] at h
  obtain ⟨i, hi, hri⟩ := List.getElem_of_mem hr
  have hp := h (r, i) (by rw [List.mem_zipIdx_iff_getElem?]; simp [hi, hri])
  exact ⟨j + i, fun hc => hp ⟨he, hb, rawStateToStatus_eq_connected.mpr hc⟩⟩

theorem exists_of_otherMemberBrokenLive {members : List WatchedMember}
    (h : otherMemberBrokenLive lib k j members rows exclude = true) :
    ∃ e ∈ members, e.id ∉ exclude ∧ ∃ i, lib.getsockstate k i e.id = .connected := by
  simp only [otherMemberBrokenLive, List.any_eq_true, Bool.and_eq_true, decide_eq_true_eq] at h
  obtain ⟨⟨e, i⟩, hm, ⟨he, -⟩, hc⟩ := h
  exact ⟨e, List.fst_mem_of_mem_zipIdx hm, he, j + i, hc⟩

theorem not_connected_of_not_otherMemberBrokenLive {members : List WatchedMember}
    (h : otherMemberBrokenLive lib k j members rows exclude = false) {e : WatchedMember}
    (hm : e ∈ members) (he : e.id ∉ exclude) {r : GroupData} (hr : r ∈ rows) (hid : r.id = e.id)
    (hb : mapMemberStatus r.memberstate = .broken) :
    ∃ i, lib.getsockstate k i e.id ≠ .connected := by
  simp only [otherMemberBrokenLive, List.any_eq_false, Bool.and_eq_true, decide_eq_true_eq] at h
  obtain ⟨i, hi, hei⟩ := List.getElem_of_mem hm
  have hp := h (e, i) (by rw [List.mem_zipIdx_iff_getElem?]; simp [hi, hei])
  refine ⟨j + i, fun hc => hp ⟨⟨he, ?_⟩, hc⟩⟩
  simp only [List.any_eq_true, Bool.and_eq_true, decide_eq_true_eq]
  exact ⟨r, hr, hid, hb⟩

theorem otherMemberBrokenLive_congr {members members' : List WatchedMember}
    (h : members.map WatchedMember.id = members'.map WatchedMember.id) :
    otherMemberBrokenLive lib k j members rows exclude =
      otherMemberBrokenLive lib k j members' rows exclude := by
  have hids (ms : List WatchedMember) : otherMemberBrokenLive lib k j ms rows exclude =
      (ms.map WatchedMember.id).zipIdx.any fun e => e.1 ∉ exclude &&
        rows.any (fun r => r.id = e.1 && mapMemberStatus r.memberstate = .broken) &&
        lib.getsockstate k (j + e.2) e.1 = .connected := by
    rw [List.zipIdx_map, List.any_map]
    rfl
  rw [hids, hids, h]

end Others

section RepairPlan

variable {repairs : ℕ} {sibling : Option (SocketId × Bool)} {atPeer resolving : Bool}

theorem repairPlan_closeThenSpawn
    (h : repairPlan repairs sibling atPeer resolving = .closeThenSpawn) :
    sibling = none ∧ repairs < maxStrandedRepairs ∧ atPeer = true := by
  rcases sibling with _ | ⟨id, _ | _⟩ <;> simp only [repairPlan] at h
  · split_ifs at h; simp_all
  · cases h
  · split_ifs at h

theorem repairPlan_spawnThenClose
    (h : repairPlan repairs sibling atPeer resolving = .spawnThenClose) :
    sibling = none ∧ repairs < maxStrandedRepairs ∧ atPeer = false ∧ resolving = false := by
  rcases sibling with _ | ⟨id, _ | _⟩ <;> simp only [repairPlan] at h
  · split_ifs at h; simp_all
  · cases h
  · split_ifs at h

theorem repairPlan_joinSibling {other : SocketId}
    (h : repairPlan repairs sibling atPeer resolving = .joinSibling other) :
    sibling = some (other, false) ∨ sibling = some (other, true) ∧ atPeer = true := by
  rcases sibling with _ | ⟨id, _ | _⟩ <;> simp only [repairPlan] at h
  · split_ifs at h
  · cases h; exact .inl rfl
  · split_ifs at h; simp_all

theorem repairPlan_handToSibling {other : SocketId}
    (h : repairPlan repairs sibling atPeer resolving = .handToSibling other) :
    sibling = some (other, true) ∧ atPeer = false ∧ resolving = false := by
  rcases sibling with _ | ⟨id, _ | _⟩ <;> simp only [repairPlan] at h
  · split_ifs at h
  · cases h
  · split_ifs at h; simp_all

end RepairPlan

section Plans

variable {lib : Libsrt} {k : ℕ} {w : WatchedMember} {broken : Bool}
  {watched spawned : List WatchedMember} {rows : List GroupData} {now : Instant}

/-- A member is closed before its replacement is spawned only for an endpoint
nobody else carries, and with another member up at the peer. -/
theorem planRepair_closeThenSpawn
    (h : planRepair lib k w broken watched spawned rows now = .closeThenSpawn) :
    findSibling lib k w watched spawned rows = none ∧
      (otherMemberAtPeer lib k rows.length rows (repairChain w) = true ∨
        otherMemberBrokenLive lib k (2 * rows.length) (watched ++ spawned) rows
          (repairChain w) = true) := by
  obtain ⟨hs, -, hp⟩ := repairPlan_closeThenSpawn h
  simp only [weighOthers, Bool.or_eq_true, Bool.and_eq_true] at hp
  exact ⟨hs, hp.imp_right And.right⟩

/-- A member overlaps its replacement, or is left to a sibling still watched, only
with nobody up at the peer or listed Broken on a connected socket, and nobody in
its handshake. -/
theorem alone_of_weighOthers {up brokenLive handshaking : Bool}
    (hp : (weighOthers broken up brokenLive handshaking).1 = false)
    (hr : (weighOthers broken up brokenLive handshaking).2 = false) :
    up = false ∧ brokenLive = false ∧ handshaking = false := by
  cases broken <;> simp_all [weighOthers]

theorem planRepair_spawnThenClose
    (h : planRepair lib k w broken watched spawned rows now = .spawnThenClose) :
    findSibling lib k w watched spawned rows = none ∧
      otherMemberAtPeer lib k rows.length rows (repairChain w) = false ∧
      otherMemberBrokenLive lib k (2 * rows.length) (watched ++ spawned) rows
        (repairChain w) = false := by
  obtain ⟨hs, -, hp, hr⟩ := repairPlan_spawnThenClose h
  obtain ⟨hup, hbl, -⟩ := alone_of_weighOthers hp hr
  exact ⟨hs, hup, hbl⟩

/-- A member that is kept until another is up has nobody else to look to. -/
theorem planRepair_alone (h : planRepair lib k w broken watched spawned rows now = .spawnThenClose ∨
    ∃ other, planRepair lib k w broken watched spawned rows now = .handToSibling other) :
    otherMemberAtPeer lib k rows.length rows (repairChain w) = false ∧
      otherMemberBrokenLive lib k (2 * rows.length) (watched ++ spawned) rows (repairChain w) = false ∧
      otherMemberHandshaking (watched ++ spawned) (repairChain w) now = false := by
  rcases h with h | ⟨other, h⟩
  · obtain ⟨-, -, hp, hr⟩ := repairPlan_spawnThenClose h
    exact alone_of_weighOthers hp hr
  · obtain ⟨-, hp, hr⟩ := repairPlan_handToSibling h
    exact alone_of_weighOthers hp hr

/-- A member joins a sibling nobody watches, or one still watched with another
member up at the peer. -/
theorem planRepair_joinSibling {other : SocketId}
    (h : planRepair lib k w broken watched spawned rows now = .joinSibling other) :
    findSibling lib k w watched spawned rows = some (other, false) ∨
      findSibling lib k w watched spawned rows = some (other, true) ∧
      (otherMemberAtPeer lib k rows.length rows (repairChain w) = true ∨
        otherMemberBrokenLive lib k (2 * rows.length) (watched ++ spawned) rows
          (repairChain w) = true) := by
  refine (repairPlan_joinSibling h).imp_right fun ⟨hs, hp⟩ => ⟨hs, ?_⟩
  simp only [weighOthers, Bool.or_eq_true, Bool.and_eq_true] at hp
  exact hp.imp_right And.right

theorem planRepair_handToSibling {other : SocketId}
    (h : planRepair lib k w broken watched spawned rows now = .handToSibling other) :
    findSibling lib k w watched spawned rows = some (other, true) ∧
      otherMemberAtPeer lib k rows.length rows (repairChain w) = false ∧
      otherMemberBrokenLive lib k (2 * rows.length) (watched ++ spawned) rows
        (repairChain w) = false := by
  obtain ⟨hs, hp, hr⟩ := repairPlan_handToSibling h
  obtain ⟨hup, hbl, -⟩ := alone_of_weighOthers hp hr
  exact ⟨hs, hup, hbl⟩

/-- A sibling is a replacement spawned earlier in the check, or else a listed member in
flight. -/
theorem findSibling_some {other : SocketId} {watching : Bool}
    (h : findSibling lib k w watched spawned rows = some (other, watching)) :
    (∃ e ∈ spawned, e.id = other ∧ e.endpoint.token = w.endpoint.token ∧ watching = true) ∨
      (∀ e ∈ spawned, e.endpoint.token ≠ w.endpoint.token) ∧
        memberInFlight lib k 0 rows w.endpoint.token (repairChain w) = some other ∧
        ((∃ e ∈ watched ++ spawned, e.id = other) ↔ watching = true) := by
  unfold findSibling at h
  split at h
  · rename_i e he
    cases h
    exact .inl ⟨e, List.mem_of_find?_eq_some he, rfl, by simpa using List.find?_some he, rfl⟩
  · rename_i hnone
    simp only [Option.map_eq_some_iff, Prod.mk.injEq] at h
    obtain ⟨id, hid, rfl, hw⟩ := h
    refine .inr ⟨by simpa using hnone, hid, ?_⟩
    rw [← hw]
    simp only [List.any_eq_true, decide_eq_true_eq]

theorem findSibling_none (h : findSibling lib k w watched spawned rows = none) :
    (∀ e ∈ spawned, e.endpoint.token ≠ w.endpoint.token) ∧
      memberInFlight lib k 0 rows w.endpoint.token (repairChain w) = none := by
  unfold findSibling at h
  split at h
  · cases h
  · rename_i hf
    exact ⟨by simpa using hf, by simpa using h⟩

/-- A sibling the bridge watches is a watched member outside the chain, or a
replacement spawned earlier in the check. -/
theorem findSibling_watched {other : SocketId}
    (h : findSibling lib k w watched spawned rows = some (other, true)) :
    (∃ e ∈ spawned, e.id = other ∧ e.endpoint.token = w.endpoint.token) ∨
      other ∉ repairChain w ∧ ∃ e ∈ watched ++ spawned, e.id = other := by
  rcases findSibling_some h with ⟨e, he, hid, ht, -⟩ | ⟨-, hf, hw⟩
  · exact .inl ⟨e, he, hid, ht⟩
  · obtain ⟨r, -, i, -, -, hn, -⟩ := memberInFlight_some hf
    exact .inr ⟨hn, hw.mpr rfl⟩

end Plans

end SrtBridge
