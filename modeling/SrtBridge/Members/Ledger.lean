import SrtBridge.Members.Group

/-! Where the members are. Every member the bridge spawned is watched, superseded
by a watched member, closed, or released by a look that found it gone or up with
nothing left to supersede; and it is in exactly one of these places. -/

namespace SrtBridge

def MemberEvent.spawnedId : MemberEvent → Option SocketId
  | .spawn _ id _ => some id
  | _ => none

def MemberEvent.closedId : MemberEvent → Option SocketId
  | .close _ id => some id
  | _ => none

def MemberEvent.lookedId : MemberEvent → Option SocketId
  | .look _ id _ _ _ _ => some id
  | _ => none

/-- A look that finds a member gone, or up with nothing left to supersede. -/
def MemberEvent.releasedId : MemberEvent → Option SocketId
  | .look _ id _ verdict _ left =>
    if verdict = .gone ∨ verdict = .confirmed ∧ left = [] then some id else none
  | _ => none

def spawnedIds (T : List MemberEvent) : List SocketId := T.filterMap MemberEvent.spawnedId

def closedIds (T : List MemberEvent) : List SocketId := T.filterMap MemberEvent.closedId

def lookedIds (T : List MemberEvent) : List SocketId := T.filterMap MemberEvent.lookedId

def releasedIds (T : List MemberEvent) : List SocketId := T.filterMap MemberEvent.releasedId

def watchedIds (ws : List WatchedMember) : List SocketId := ws.map WatchedMember.id

def supersededIds (ws : List WatchedMember) : List SocketId := ws.flatMap WatchedMember.supersedes

section Events

variable (T T' : List MemberEvent) (k : ℕ) (ids : List SocketId)

@[simp] theorem spawnedIds_append : spawnedIds (T ++ T') = spawnedIds T ++ spawnedIds T' :=
  List.filterMap_append

@[simp] theorem closedIds_append : closedIds (T ++ T') = closedIds T ++ closedIds T' :=
  List.filterMap_append

@[simp] theorem lookedIds_append : lookedIds (T ++ T') = lookedIds T ++ lookedIds T' :=
  List.filterMap_append

@[simp] theorem releasedIds_append : releasedIds (T ++ T') = releasedIds T ++ releasedIds T' :=
  List.filterMap_append

@[simp] theorem spawnedIds_nil : spawnedIds [] = [] := rfl

@[simp] theorem closedIds_nil : closedIds [] = [] := rfl

@[simp] theorem lookedIds_nil : lookedIds [] = [] := rfl

@[simp] theorem releasedIds_nil : releasedIds [] = [] := rfl

@[simp] theorem spawnedIds_closeMembers : spawnedIds (closeMembers k ids) = [] := by
  simp [spawnedIds, closeMembers, MemberEvent.spawnedId]

@[simp] theorem closedIds_closeMembers : closedIds (closeMembers k ids) = ids := by
  induction ids with
  | nil => rfl
  | cons id ids ih => exact congrArg (id :: ·) ih

@[simp] theorem lookedIds_closeMembers : lookedIds (closeMembers k ids) = [] := by
  simp [lookedIds, closeMembers, MemberEvent.lookedId]

@[simp] theorem releasedIds_closeMembers : releasedIds (closeMembers k ids) = [] := by
  simp [releasedIds, closeMembers, MemberEvent.releasedId]

variable (id : SocketId) (ep : GroupEndpoint)

@[simp] theorem spawnedIds_spawn : spawnedIds [.spawn k id ep] = [id] := rfl

@[simp] theorem closedIds_spawn : closedIds [.spawn k id ep] = [] := rfl

@[simp] theorem lookedIds_spawn : lookedIds [.spawn k id ep] = [] := rfl

@[simp] theorem releasedIds_spawn : releasedIds [.spawn k id ep] = [] := rfl

variable (members : List (GroupEndpoint × SocketId))

@[simp] theorem spawnedIds_spawnEvents :
    spawnedIds (spawnEvents k members) = members.map Prod.snd := by
  induction members with
  | nil => rfl
  | cons e es ih => exact congrArg (e.2 :: ·) ih

@[simp] theorem closedIds_spawnEvents : closedIds (spawnEvents k members) = [] := by
  simp [closedIds, spawnEvents, MemberEvent.closedId]

@[simp] theorem releasedIds_spawnEvents : releasedIds (spawnEvents k members) = [] := by
  simp [releasedIds, spawnEvents, MemberEvent.releasedId]

variable (lib : Libsrt) (inp : CheckInput) (w : WatchedMember) (plan : RepairPlan)

@[simp] theorem spawnedIds_look : spawnedIds ((lookAt lib inp k w).events k inp.now) = [] :=
  spawnedIds_closeMembers k _

@[simp] theorem closedIds_look :
    closedIds ((lookAt lib inp k w).events k inp.now) = (lookAt lib inp k w).lingered :=
  closedIds_closeMembers k _

@[simp] theorem lookedIds_look : lookedIds ((lookAt lib inp k w).events k inp.now) = [w.id] := by
  rw [← lookAt_id lib inp k w]
  exact congrArg _ (lookedIds_closeMembers k _)

theorem releasedIds_look : releasedIds ((lookAt lib inp k w).events k inp.now) =
    if (lookAt lib inp k w).next = .drop then [w.id] else [] := by
  have h := releasedIds_closeMembers k (lookAt lib inp k w).lingered
  simp only [releasedIds, Look.events, List.filterMap_cons, MemberEvent.releasedId,
    ← lookAt_drop] at h ⊢
  split_ifs <;> simp_all

@[simp] theorem spawnedIds_repairEvents : spawnedIds (repairEvents lib inp k w plan) = [] := by
  rw [repairEvents, spawnedIds_append, spawnedIds_look]
  rfl

@[simp] theorem lookedIds_repairEvents : lookedIds (repairEvents lib inp k w plan) = [w.id] := by
  rw [repairEvents, lookedIds_append, lookedIds_look]
  rfl

/-- A look that chooses a replacement closes nothing of its own. -/
theorem closedIds_repairEvents (h : (lookAt lib inp k w).next = .repair) :
    closedIds (repairEvents lib inp k w plan) = [] := by
  rw [repairEvents, closedIds_append, closedIds_look, (lookAt_lingered_of_repair h).1]
  rfl

theorem releasedIds_repairEvents (h : (lookAt lib inp k w).next = .repair) :
    releasedIds (repairEvents lib inp k w plan) = [] := by
  rw [repairEvents, releasedIds_append, releasedIds_look, h]
  rfl

end Events

structure Birth where
  step : ℕ
  id : SocketId
  endpoint : GroupEndpoint
  deriving DecidableEq

def MemberEvent.birth : MemberEvent → Option Birth
  | .spawn k id ep => some ⟨k, id, ep⟩
  | _ => none

def births (T : List MemberEvent) : List Birth := T.filterMap MemberEvent.birth

section Births

variable {T T' : List MemberEvent}

theorem births_append : births (T ++ T') = births T ++ births T' := List.filterMap_append

theorem mem_births {b : Birth} : b ∈ births T ↔ .spawn b.step b.id b.endpoint ∈ T := by
  simp only [births, List.mem_filterMap]
  constructor
  · rintro ⟨e, he, hb⟩
    cases e with
    | spawn k id ep => obtain rfl := Option.some.inj hb; exact he
    | _ => cases hb
  · exact fun h => ⟨_, h, rfl⟩

theorem births_ids (T : List MemberEvent) : (births T).map Birth.id = spawnedIds T := by
  rw [births, spawnedIds, List.map_filterMap]
  congr 1
  funext e
  cases e <;> rfl

/-- Where ids are not given twice, a member is born once. -/
theorem born_once (hn : (spawnedIds T).Nodup) {b b' : Birth} (hb : b ∈ births T) (hb' : b' ∈ births T)
    (hid : b.id = b'.id) : b = b' :=
  List.inj_on_of_nodup_map (births_ids T ▸ hn) hb hb' hid

end Births

def held (id : SocketId) (ws : List WatchedMember) : ℕ :=
  (watchedIds ws).count id + (supersededIds ws).count id

section Held

variable (id : SocketId)

@[simp] theorem held_nil : held id [] = 0 := rfl

@[simp] theorem held_append (xs ys : List WatchedMember) : held id (xs ++ ys) = held id xs + held id ys := by
  simp only [held, watchedIds, supersededIds, List.map_append, List.flatMap_append,
    List.count_append]
  omega

@[simp] theorem held_cons (w : WatchedMember) (ws : List WatchedMember) :
    held id (w :: ws) = (repairChain w).count id + held id ws := by
  simp only [held, watchedIds, supersededIds, List.map_cons, List.flatMap_cons, List.count_append,
    repairChain, List.count_cons, List.count_nil]
  omega

theorem held_perm {xs ys : List WatchedMember} (h : xs.Perm ys) : held id xs = held id ys := by
  simp only [held, watchedIds, supersededIds, (h.map _).count_eq, (h.flatMap_right _).count_eq]

theorem held_handedTo {other : SocketId} {chain : List SocketId} {xs xs' : List WatchedMember}
    (h : HandedTo other chain xs xs') : held id xs' = held id xs + chain.count id := by
  obtain ⟨a, e, b, rfl, -, rfl⟩ := h
  simp only [held_append, held_cons, repairChain, List.count_append]
  omega

theorem held_lookAt (lib : Libsrt) (inp : CheckInput) (k : ℕ) (w : WatchedMember) :
    (repairChain w).count id = (repairChain (lookAt lib inp k w).member).count id +
      (lookAt lib inp k w).lingered.count id := by
  simp only [repairChain, List.count_append, lookAt_id]
  rcases lookAt_supersedes lib inp k w with ⟨hs, hl⟩ | ⟨-, hs, hl⟩ <;> simp only [hs, hl] <;> simp
  omega

theorem held_watchSpawned (lib : Libsrt) (k : ℕ) (now : Instant)
    (members : List (GroupEndpoint × SocketId)) :
    held id (watchSpawned lib k now members) = (members.map Prod.snd).count id := by
  induction members with
  | nil => rfl
  | cons e es ih =>
    have he : watchSpawned lib k now (e :: es) =
      .spawned lib k e.2 e.1 now :: watchSpawned lib k now es := rfl
    rw [he, held_cons, ih]
    simp [repairChain, List.count_cons, add_comm]

theorem held_readLive (lib : Libsrt) (k : ℕ) (ws : List WatchedMember) :
    held id (readLive lib k ws) = held id ws := by
  induction ws generalizing k with
  | nil => rfl
  | cons w ws ih => simp only [readLive, held_cons, repairChain, ih]

end Held

/-- Every spawned member is watched, superseded, closed or released, once in all. -/
def Ledger (ws : List WatchedMember) (T : List MemberEvent) : Prop :=
  ∀ id, (spawnedIds T).count id =
    held id ws + (closedIds T).count id + (releasedIds T).count id

/-- No exit of a turn loses a member or counts one twice. -/
theorem Exit.ledger {lib : Libsrt} {inp : CheckInput} {k : ℕ} {seen : List WatchedMember}
    {w : WatchedMember} {unseen spawned seen' unseen' spawned' : List WatchedMember}
    {events T : List MemberEvent}
    (h : Exit lib inp k seen w unseen spawned seen' unseen' spawned' events)
    (hl : Ledger (seen ++ w :: unseen ++ spawned) T) :
    Ledger (seen' ++ unseen' ++ spawned') (T ++ events) := by
  intro id
  have hid := hl id
  have hlook := held_lookAt id lib inp k w
  have hrest := held_perm id (General.lastToFront_perm unseen)
  simp only [held_append, held_cons] at hid
  cases h with
  | later =>
    simp only [held_append, held_cons, held_nil, List.append_nil]
    omega
  | keep hd hn hk =>
    have hnd : (lookAt lib inp k w).next ≠ .drop := by
      rcases hn with hn | ⟨hn, -⟩ <;> simp [hn]
    subst hk
    simp [releasedIds_look, hnd, repairChain] at hid hlook ⊢
    omega
  | recheck hd hn =>
    simp [releasedIds_look, hn, repairChain] at hid hlook ⊢
    omega
  | drop hd hn =>
    simp [releasedIds_look, hn, repairChain, hrest, List.count_cons] at hid hlook ⊢
    omega
  | abandon hd hn =>
    simp [releasedIds_look, hn, repairChain, hrest, List.count_cons] at hid hlook ⊢
    omega
  | close hd hn hp hw hh =>
    simp [closedIds_repairEvents, releasedIds_repairEvents, hn, hrest] at hid ⊢
    omega
  | hand hd hn hp hh hs hr =>
    have hheld := held_handedTo id hh
    simp [closedIds_repairEvents, releasedIds_repairEvents, hn, hrest] at hid hheld ⊢
    omega
  | closeSpawn hd hn hp hc =>
    simp [closedIds_repairEvents, releasedIds_repairEvents, hn, hrest, repairChain,
      replacement] at hid ⊢
    omega
  | overlap hd hn hp hc =>
    simp [closedIds_repairEvents, releasedIds_repairEvents, hn, hrest, repairChain,
      replacement, List.count_cons] at hid ⊢
    omega

section Exits

variable {lib : Libsrt} {inp : CheckInput} {k : ℕ} {seen : List WatchedMember} {w : WatchedMember}
  {unseen spawned seen' unseen' spawned' : List WatchedMember} {events : List MemberEvent}

/-- A turn looks at its member if that is due, and at no other. -/
theorem Exit.lookedIds (h : Exit lib inp k seen w unseen spawned seen' unseen' spawned' events) :
    lookedIds events = if w.notBefore ≤ inp.now then [w.id] else [] := by
  cases h with
  | later h => simp [not_le.mpr h]
  | _ => simp [*]

/-- A turn at a due member begins with its look, and looks at no other. -/
theorem Exit.begins_with_look (h : Exit lib inp k seen w unseen spawned seen' unseen' spawned' events)
    (hd : w.notBefore ≤ inp.now) :
    ∃ rest, events = (lookAt lib inp k w).events k inp.now ++ rest ∧ SrtBridge.lookedIds rest = [] := by
  have hrepair (plan : RepairPlan) : SrtBridge.lookedIds [.repair k w.id (repairChain w) plan] = [] := rfl
  cases h with
  | later hl => exact absurd hd (not_le.mpr hl)
  | keep | recheck => exact ⟨[], (List.append_nil _).symm, rfl⟩
  | drop | abandon => exact ⟨_, rfl, lookedIds_closeMembers k _⟩
  | close =>
    refine ⟨_, List.append_assoc .., ?_⟩
    rw [lookedIds_append, hrepair, lookedIds_closeMembers, List.append_nil]
  | hand => exact ⟨_, rfl, hrepair _⟩
  | closeSpawn =>
    refine ⟨_, by rw [repairEvents, List.append_assoc, List.append_assoc], ?_⟩
    rw [lookedIds_append, lookedIds_append, hrepair, lookedIds_closeMembers, lookedIds_spawn]
    rfl
  | overlap =>
    refine ⟨_, List.append_assoc .., ?_⟩
    rw [lookedIds_append, hrepair, lookedIds_spawn]
    rfl

/-- A turn closes its member, and what that supersedes, if anything. -/
theorem Exit.mem_closedIds (h : Exit lib inp k seen w unseen spawned seen' unseen' spawned' events)
    {id : SocketId} (hid : id ∈ closedIds events) :
    id ∈ w.supersedes ∨ id = w.id ∧
      ((lookAt lib inp k w).next = .abandon ∨ (lookAt lib inp k w).next = .repair) := by
  have hling (h : id ∈ (lookAt lib inp k w).lingered) := mem_lookAt_lingered h
  have hsup (h : id ∈ (lookAt lib inp k w).member.supersedes) := mem_lookAt_supersedes h
  cases h with
  | later => simp at hid
  | keep | recheck => exact .inl (hling (by simpa using hid))
  | drop =>
    simp only [closedIds_append, closedIds_look, closedIds_closeMembers, List.mem_append] at hid
    exact .inl (hid.elim hling hsup)
  | abandon hd hn =>
    simp only [closedIds_append, closedIds_look, closedIds_closeMembers, List.mem_append,
      List.mem_cons] at hid
    rcases hid with hid | rfl | hid
    · exact .inl (hling hid)
    · exact .inr ⟨rfl, .inl hn⟩
    · exact .inl (hsup hid)
  | close hd hn | closeSpawn hd hn =>
    simp [closedIds_repairEvents, hn] at hid
    exact hid.imp_right fun h => ⟨h, .inr hn⟩
  | hand hd hn | overlap hd hn => simp [closedIds_repairEvents, hn] at hid

end Exits

section Spawns

variable {lib : Libsrt} {grp : SocketId}

def SpawnedBefore (k : ℕ) (T : List MemberEvent) : Prop := ∀ k' id ep, .spawn k' id ep ∈ T → k' < k

theorem mem_spawnedIds {T : List MemberEvent} {id : SocketId} :
    id ∈ spawnedIds T ↔ ∃ k ep, .spawn k id ep ∈ T := by
  simp only [spawnedIds, List.mem_filterMap]
  constructor
  · rintro ⟨e, he, hid⟩
    cases e with
    | spawn k i ep => exact ⟨k, ep, Option.some.inj hid ▸ he⟩
    | _ => cases hid
  · rintro ⟨k, ep, h⟩
    exact ⟨_, h, rfl⟩

/-- No id was given twice up to a time if none is given twice later. -/
theorem nodup_of_append {T events : List MemberEvent} (h : (spawnedIds (T ++ events)).Nodup) :
    (spawnedIds T).Nodup :=
  (List.nodup_append.mp (spawnedIds_append T events ▸ h)).1

theorem SpawnedBefore.mono {k k' : ℕ} {T : List MemberEvent} (h : SpawnedBefore k T) (hk : k ≤ k') :
    SpawnedBefore k' T := fun i id ep hid => (h i id ep hid).trans_le hk

theorem SpawnedBefore.append {k : ℕ} {T events : List MemberEvent} (h : SpawnedBefore k T)
    (he : ∀ k' id ep, .spawn k' id ep ∈ events → k' = k) : SpawnedBefore (k + 1) (T ++ events) := by
  intro i id ep hid
  rcases List.mem_append.mp hid with hid | hid
  · exact h.mono (Nat.le_succ k) i id ep hid
  · rw [he i id ep hid]
    exact Nat.lt_succ_self k

section Turn

variable {inp : CheckInput} {k : ℕ} {seen : List WatchedMember} {w : WatchedMember}
  {unseen spawned seen' unseen' spawned' : List WatchedMember} {events : List MemberEvent}

/-- A turn spawns at most one member, for the endpoint of the member it looks at. -/
theorem Exit.spawns (h : Exit lib inp k seen w unseen spawned seen' unseen' spawned' events) :
    (∀ e ∈ events, e.spawnedId = none) ∨
      ∃ before id, events = before ++ [.spawn k id w.endpoint] ∧ (∀ e ∈ before, e.spawnedId = none) ∧
        (connectGroup lib k 0 inp.grp [w.endpoint]).single = .ok id := by
  have hclose (ids : List SocketId) : ∀ e ∈ closeMembers k ids, e.spawnedId = none := by
    simp [closeMembers, MemberEvent.spawnedId]
  have hlook : ∀ e ∈ (lookAt lib inp k w).events k inp.now, e.spawnedId = none := by
    simpa [Look.events, MemberEvent.spawnedId] using hclose _
  have happ {T T' : List MemberEvent} (h : ∀ e ∈ T, e.spawnedId = none)
      (h' : ∀ e ∈ T', e.spawnedId = none) : ∀ e ∈ T ++ T', e.spawnedId = none := fun e he =>
    (List.mem_append.mp he).elim (h e) (h' e)
  have hrep (plan : RepairPlan) : ∀ e ∈ repairEvents lib inp k w plan, e.spawnedId = none :=
    happ hlook (by simp [MemberEvent.spawnedId])
  cases h with
  | later => exact .inl (by simp)
  | keep | recheck => exact .inl hlook
  | drop | abandon => exact .inl (happ hlook (hclose _))
  | close => exact .inl (happ (hrep _) (hclose _))
  | hand => exact .inl (hrep _)
  | closeSpawn hd hn hp hc => exact .inr ⟨_, _, rfl, happ (hrep _) (hclose _), hc⟩
  | overlap hd hn hp hc => exact .inr ⟨_, _, rfl, hrep _, hc⟩

theorem Exit.mem_spawn (h : Exit lib inp k seen w unseen spawned seen' unseen' spawned' events)
    {k' : ℕ} {id : SocketId} {ep : GroupEndpoint} (he : .spawn k' id ep ∈ events) :
    k' = k ∧ ep = w.endpoint ∧ (connectGroup lib k 0 inp.grp [w.endpoint]).single = .ok id := by
  rcases h.spawns with hs | ⟨before, new, rfl, hs, hc⟩
  · exact absurd (hs _ he) (by simp [MemberEvent.spawnedId])
  · rcases List.mem_append.mp he with he | he
    · exact absurd (hs _ he) (by simp [MemberEvent.spawnedId])
    · simp only [List.mem_singleton, MemberEvent.spawn.injEq] at he
      exact ⟨he.1, he.2.2, he.2.1 ▸ hc⟩

end Turn

theorem spawnedBefore_preserved (lib : Libsrt) (grp : SocketId) :
    Preserved lib grp (fun _ => True) (fun _ _ k T => SpawnedBefore k T)
      (fun _ _ _ _ k T => SpawnedBefore k T) where
  elapse _ _ h := h
  skip _ h := h.mono (Nat.le_succ _)
  reorder _ _ h := h
  connect _ h _ := h.append fun k' id ep he => by
    obtain ⟨m, -, hm⟩ := List.mem_map.mp he
    exact (MemberEvent.spawn.inj hm).1.symm
  add _ h _ _ := h.append fun k' id ep he => (MemberEvent.spawn.inj (List.mem_singleton.mp he)).1
  begin h _ _ _ := h.mono (by omega)
  turn h he := h.append fun k' id ep hs => (he.mem_spawn hs).1
  finish h := h.mono (Nat.le_succ _)

end Spawns

theorem ledger_preserved (lib : Libsrt) (grp : SocketId) :
    Preserved lib grp (fun _ => True) (fun ws _ _ T => Ledger ws T)
      (fun _ seen unseen spawned _ T => Ledger (seen ++ unseen ++ spawned) T) where
  elapse _ _ h := h
  skip _ h := h
  reorder _ hp h id := by rw [held_perm id hp]; exact h id
  connect _ h _ id := by
    have hid := h id
    simp only [spawnedIds_append, spawnedIds_spawnEvents, closedIds_append,
      closedIds_spawnEvents, releasedIds_append, releasedIds_spawnEvents, held_append,
      held_watchSpawned, List.count_append, List.count_nil]
    omega
  add _ h _ _ id := by
    have hid := h id
    simp [repairChain] at hid ⊢
    omega
  begin h _ _ _ id := by simpa [held_readLive] using h id
  turn h he := he.ledger h
  finish h := by simpa using h

/-- Where the members are, all of them spawned before step `k`. -/
def Accounted (ws : List WatchedMember) (k : ℕ) (T : List MemberEvent) : Prop :=
  SpawnedBefore k T ∧ Ledger ws T

theorem Accounted.later {ws ws' : List WatchedMember} {k : ℕ} {T : List MemberEvent} (h : Accounted ws k T)
    (hws : ws' = ws) : Accounted ws' (k + 1) T := hws ▸ ⟨h.1.mono (Nat.le_succ k), h.2⟩

theorem accounted_preserved (lib : Libsrt) (grp : SocketId) :
    Preserved lib grp (fun _ => True) (fun ws _ k T => Accounted ws k T)
      (fun _ seen unseen spawned k T => Accounted (seen ++ unseen ++ spawned) k T) :=
  (spawnedBefore_preserved lib grp).and (ledger_preserved lib grp)

section Accounted

variable {ws : List WatchedMember} {k : ℕ} {T : List MemberEvent}

theorem Accounted.held_le_one (h : Accounted ws k T) (hn : (spawnedIds T).Nodup) (id : SocketId) :
    held id ws + (closedIds T).count id + (releasedIds T).count id ≤ 1 := by
  rw [← h.2 id]
  exact List.nodup_iff_count_le_one.mp hn id

/-- Where ids are not given twice, no two watched members have the same. -/
theorem Accounted.watchedIds_nodup (h : Accounted ws k T) (hn : (spawnedIds T).Nodup) :
    (watchedIds ws).Nodup := by
  apply List.nodup_iff_count_le_one.mpr
  intro id
  have hid := h.held_le_one hn id
  simp only [held] at hid
  omega

end Accounted

/-- Members at different places of the list have different ids. -/
theorem id_ne_of_nodup {seen unseen spawned : List WatchedMember} {w : WatchedMember}
    (hids : (watchedIds (seen ++ w :: unseen ++ spawned)).Nodup)
    {v : WatchedMember} (hv : v ∈ seen ++ unseen ++ spawned) : w.id ≠ v.id := by
  have hperm : (seen ++ w :: unseen ++ spawned).Perm (w :: (seen ++ unseen ++ spawned)) := by
    rw [List.append_assoc, List.append_assoc]
    exact List.perm_middle
  have hcons : (w.id :: watchedIds (seen ++ unseen ++ spawned)).Nodup := (hperm.map _).nodup_iff.mp hids
  intro he
  exact (List.nodup_cons.mp hcons).1 (List.mem_map.mpr ⟨v, hv, he.symm⟩)

theorem held_pos_of_chain {w : WatchedMember} {ws : List WatchedMember} {id : SocketId}
    (hw : w ∈ ws) (hid : id ∈ repairChain w) : 0 < held id ws := by
  obtain ⟨a, b, rfl⟩ := List.append_of_mem hw
  have hpos : 0 < (repairChain w).count id := List.count_pos_iff.mpr hid
  simp only [held_append, held_cons]
  omega

theorem Accounted.mem_spawnedIds {ws : List WatchedMember} {k : ℕ}
    {T : List MemberEvent} (h : Accounted ws k T) {w : WatchedMember} (hw : w ∈ ws)
    {id : SocketId} (hid : id ∈ repairChain w) : id ∈ spawnedIds T := by
  have hpos := held_pos_of_chain hw hid
  have hl := h.2 id
  exact List.count_pos_iff.mp (by omega)

theorem mem_closedIds {T : List MemberEvent} {id : SocketId} :
    id ∈ closedIds T ↔ ∃ k, .close k id ∈ T := by
  simp only [closedIds, List.mem_filterMap]
  constructor
  · rintro ⟨e, he, hid⟩
    cases e with
    | close k i => exact ⟨k, Option.some.inj hid ▸ he⟩
    | _ => cases hid
  · rintro ⟨k, h⟩
    exact ⟨_, h, rfl⟩

def MemberEvent.step : MemberEvent → ℕ
  | .spawn k _ _ => k
  | .look k _ _ _ _ _ => k
  | .repair k _ _ _ => k
  | .close k _ => k

theorem Exit.step_eq {lib : Libsrt} {inp : CheckInput} {k : ℕ} {seen : List WatchedMember}
    {w : WatchedMember} {unseen spawned seen' unseen' spawned' : List WatchedMember}
    {events : List MemberEvent}
    (h : Exit lib inp k seen w unseen spawned seen' unseen' spawned' events) :
    ∀ e ∈ events, e.step = k := by
  have hclose (ids : List SocketId) : ∀ e ∈ closeMembers k ids, e.step = k := by
    simp [closeMembers, MemberEvent.step]
  have hlook : ∀ e ∈ (lookAt lib inp k w).events k inp.now, e.step = k := by
    simpa [Look.events, MemberEvent.step] using hclose _
  have happ {T T' : List MemberEvent} (h : ∀ e ∈ T, e.step = k) (h' : ∀ e ∈ T', e.step = k) :
      ∀ e ∈ T ++ T', e.step = k := fun e he => (List.mem_append.mp he).elim (h e) (h' e)
  have hrep (plan : RepairPlan) : ∀ e ∈ repairEvents lib inp k w plan, e.step = k :=
    happ hlook (by simp [MemberEvent.step])
  cases h with
  | later => simp
  | keep | recheck => exact hlook
  | drop | abandon => exact happ hlook (hclose _)
  | close => exact happ (hrep _) (hclose _)
  | hand => exact hrep _
  | closeSpawn => exact happ (happ (hrep _) (hclose _)) (by simp [MemberEvent.step])
  | overlap => exact happ (hrep _) (by simp [MemberEvent.step])

theorem accounted_start (backup : Bool) :
    (GroupRun.start backup).Holds fun ws _ k T => Accounted ws k T :=
  ⟨rfl, by simp [SpawnedBefore, GroupRun.start], fun id => rfl⟩

section Due

/-- The watched members a check at `now` looks at. -/
def dueIds (now : Instant) (ws : List WatchedMember) : List SocketId :=
  ((ws.map WatchedMember.key).filter fun e => e.2 ≤ now).map Prod.fst

theorem dueIds_perm {now : Instant} {xs ys : List WatchedMember}
    (h : (xs.map WatchedMember.key).Perm (ys.map WatchedMember.key)) :
    (dueIds now xs).Perm (dueIds now ys) :=
  (h.filter _).map _

theorem dueIds_cons (now : Instant) (w : WatchedMember) (ws : List WatchedMember) :
    dueIds now (w :: ws) = (if w.notBefore ≤ now then [w.id] else []) ++ dueIds now ws := by
  by_cases h : w.notBefore ≤ now <;> simp [dueIds, WatchedMember.key, h]

/-- What the looks still to come and those done since `T₀` are together. -/
def LooksLeft (now : Instant) (T₀ : List MemberEvent) (due : List SocketId)
    (unseen : List WatchedMember) (T : List MemberEvent) : Prop :=
  ∃ events, T = T₀ ++ events ∧ (SrtBridge.lookedIds events ++ dueIds now unseen).Perm due

theorem LooksLeft.turn {lib : Libsrt} {inp : CheckInput} {k : ℕ} {seen : List WatchedMember}
    {w : WatchedMember} {unseen spawned seen' unseen' spawned' : List WatchedMember}
    {events T₀ T : List MemberEvent} {due : List SocketId}
    (hl : LooksLeft inp.now T₀ due (w :: unseen) T)
    (he : Exit lib inp k seen w unseen spawned seen' unseen' spawned' events) :
    LooksLeft inp.now T₀ due unseen' (T ++ events) := by
  obtain ⟨before, rfl, hp⟩ := hl
  refine ⟨before ++ events, List.append_assoc .., ?_⟩
  rw [lookedIds_append, he.lookedIds, List.append_assoc]
  rw [dueIds_cons] at hp
  exact (((dueIds_perm he.unseen_keys).append_left _).append_left _).trans hp

/-- A check looks at each due member exactly once, and at no other. -/
theorem checkGroup_looks (lib : Libsrt) (grp : SocketId) (r : GroupRun) :
    ∃ events, (r.checkGroup lib grp).trace = r.trace ++ events ∧
      (lookedIds events).Perm (dueIds r.clock r.entry.watched) := by
  unfold GroupRun.checkGroup
  by_cases hdue : r.entry.watched.any (fun w => w.notBefore ≤ r.clock) = true
  · have hkeys := readLive_keys lib r.step r.entry.watched
    have hstart : LooksLeft r.clock r.trace (dueIds r.clock r.entry.watched)
        (readLive lib r.step r.entry.watched) r.trace :=
      ⟨[], by simp, by simpa using dueIds_perm (.of_eq hkeys)⟩
    obtain ⟨ws, spawned, k, T, hc, events, hT, hp⟩ := checkLoop_induction
      (P := fun _ unseen _ _ T =>
        LooksLeft r.clock r.trace (dueIds r.clock r.entry.watched) unseen T)
      (fun _ _ _ _ _ _ _ _ _ _ hl (he : Exit lib (r.checkInput lib grp) ..) => hl.turn he)
      r.entry.watched.length [] _ [] (r.step + r.entry.watched.length + 1) _
      (by simpa using congrArg List.length hkeys) hstart
    simp only [hdue, if_true]
    exact ⟨events, by rw [← hT]; exact congrArg Check.trace hc, by simpa [dueIds] using hp⟩
  · refine ⟨[], by simp [hdue], ?_⟩
    have hnone : dueIds r.clock r.entry.watched = [] := by
      simp only [Bool.not_eq_true, List.any_eq_false, decide_eq_true_eq] at hdue
      simpa [dueIds, WatchedMember.key] using hdue
    rw [hnone]
    exact .refl _

end Due

end SrtBridge
