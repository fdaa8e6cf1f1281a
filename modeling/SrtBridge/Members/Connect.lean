import SrtBridge.Libsrt.Calls

/-! Spawning members: one `srt_connect_group` call over a list of endpoints, and
what it left in the group. A member libsrt reports without an id but keeps is
found by listing the group before and after the call. -/

namespace SrtBridge

structure GroupConnect where
  /-- Set when libsrt refused the call as a whole. -/
  refused : Option SrtError
  /-- Per endpoint, in order: the member now in the group, or why there is none. -/
  members : List (Except SrtError SocketId)

/-- The single member an added or a replacement endpoint spawned. -/
def GroupConnect.single (c : GroupConnect) : Except SrtError SocketId :=
  match c.members.head?, c.refused with
  | some (.ok member), _ => .ok member
  | _, some err => .error err
  | some (.error err), none => .error err
  | none, none => .error .connectionLost

def okId : Except SrtError SocketId → Option SocketId
  | .ok id => some id
  | .error _ => none

def prepareTarget (ep : GroupEndpoint) : GroupConfig where
  srcaddr := ep.localAddr
  peeraddr := ep.addr
  weight := min ep.weight maxGroupMemberWeight
  token := ep.token
  id := -1
  errorcode := 0

/-- A target libsrt reported neither an id nor an error for. -/
def GroupConfig.unreported (t : GroupConfig) : Bool := decide (t.id < 0) && decide (t.errorcode = 0)

def GroupConfig.result (t : GroupConfig) : Except SrtError SocketId :=
  if 0 ≤ t.id ∧ t.errorcode = 0 then .ok t.id
  else if t.errorcode ≠ 0 then .error (.fromCode t.errorcode)
  else .error .connectionLost

/-- Claim each newly listed member once for the targets without id and error. -/
def claimKept (rows : List GroupData) (before : List SocketId) :
    List SocketId → List (GroupConfig × Except SrtError SocketId) →
      List (Except SrtError SocketId)
  | _, [] => []
  | claimed, (t, member) :: rest =>
    if 0 ≤ t.id ∨ t.errorcode ≠ 0 then member :: claimKept rows before claimed rest
    else
      match rows.find? (fun r => r.token = t.token ∧ r.id ∉ before ∧ r.id ∉ claimed) with
      | some r => .ok r.id :: claimKept rows before (claimed ++ [r.id]) rest
      | none => member :: claimKept rows before claimed rest

/-- The targets after the call of step `k`, as libsrt wrote them. -/
def connectTargets (lib : Libsrt) (k : ℕ) (grp : SocketId) (endpoints : List GroupEndpoint) :
    List GroupConfig :=
  let targets := endpoints.map prepareTarget
  let answer := (lib.connectGroup k grp targets).2
  targets.mapIdx fun i t => { t with id := (answer i).1, errorcode := (answer i).2 }

/-- Why libsrt refused the call as a whole, if it did: the first member's error
code where there is one. -/
def connectRefused (lib : Libsrt) (k j : ℕ) (grp : SocketId) (endpoints : List GroupEndpoint) :
    Option SrtError :=
  if (lib.connectGroup k grp (endpoints.map prepareTarget)).1 < 0 then
    match (connectTargets lib k grp endpoints).find? (fun t => t.errorcode ≠ 0) with
    | some t => some (.fromCode t.errorcode)
    | none => some (lib.lastSrtError k j)
  else none

/-- The result per endpoint. The listings before and after the call are the ones
numbered `j` and `j + 1` of step `k`. -/
def connectMembers (lib : Libsrt) (k j : ℕ) (grp : SocketId) (endpoints : List GroupEndpoint) :
    List (Except SrtError SocketId) :=
  let before := (readGroupRows lib k j grp).map (·.id)
  let targets := connectTargets lib k grp endpoints
  let members := targets.map GroupConfig.result
  if targets.any GroupConfig.unreported then
    let rows := readGroupRows lib k (j + 1) grp
    claimKept rows before (members.filterMap okId) (targets.zip members)
  else members

def connectGroup (lib : Libsrt) (k j : ℕ) (grp : SocketId) (endpoints : List GroupEndpoint) :
    GroupConnect :=
  if endpoints = [] then ⟨some .invalidParam, []⟩
  else ⟨connectRefused lib k j grp endpoints, connectMembers lib k j grp endpoints⟩

theorem GroupConfig.unreported_iff {t : GroupConfig} : t.unreported = true ↔ t.id < 0 ∧ t.errorcode = 0 := by
  rw [unreported, Bool.and_eq_true, decide_eq_true_eq, decide_eq_true_eq]

theorem GroupConfig.unreported_eq_false {t : GroupConfig} :
    t.unreported = false ↔ 0 ≤ t.id ∨ t.errorcode ≠ 0 := by
  rw [unreported, Bool.and_eq_false_iff, decide_eq_false_iff_not, decide_eq_false_iff_not, not_lt]

/-- A target without id and error is taken for a lost connection. -/
theorem GroupConfig.result_unreported {t : GroupConfig} (h : t.unreported = true) :
    t.result = .error .connectionLost := by
  rw [unreported_iff] at h
  rw [result, if_neg (fun hn => absurd h.1 (not_lt.mpr hn.1)), if_neg (fun hn => hn h.2)]

theorem claimKept_length (rows : List GroupData) (before claimed : List SocketId)
    (ts : List (GroupConfig × Except SrtError SocketId)) :
    (claimKept rows before claimed ts).length = ts.length := by
  induction ts generalizing claimed with
  | nil => rfl
  | cons p ts ih =>
    obtain ⟨t, member⟩ := p
    simp only [claimKept]
    split_ifs
    · simp [ih]
    · split <;> simp [ih]

theorem connectTargets_length (lib : Libsrt) (k : ℕ) (grp : SocketId)
    (endpoints : List GroupEndpoint) :
    (connectTargets lib k grp endpoints).length = endpoints.length := by
  simp [connectTargets]

theorem connectGroup_length (lib : Libsrt) (k j : ℕ) (grp : SocketId)
    (endpoints : List GroupEndpoint) :
    (connectGroup lib k j grp endpoints).members.length = endpoints.length := by
  by_cases he : endpoints = []
  · simp [connectGroup, he]
  · simp only [connectGroup, he, if_false, connectMembers]
    split_ifs
    · rw [claimKept_length, List.length_zip, List.length_map, connectTargets_length, min_self]
    · rw [List.length_map, connectTargets_length]

section Claimed

variable {rows : List GroupData} {before : List SocketId}

/-- The ids a claim pass ends with: those the targets reported, and rows listed
only after the call. -/
theorem mem_claimKept {claimed : List SocketId}
    {ts : List (GroupConfig × Except SrtError SocketId)} {id : SocketId}
    (h : id ∈ (claimKept rows before claimed ts).filterMap okId) :
    id ∈ (ts.map Prod.snd).filterMap okId ∨
      id ∉ claimed ∧ ∃ r ∈ rows, r.id = id ∧ r.id ∉ before := by
  induction ts generalizing claimed with
  | nil => simp [claimKept] at h
  | cons p ts ih =>
    obtain ⟨t, member⟩ := p
    simp only [claimKept] at h
    have keepMember (c : List SocketId) (hc : ∀ x, x ∉ c → x ∉ claimed)
        (h : id ∈ (member :: claimKept rows before c ts).filterMap okId) :
        id ∈ (((t, member) :: ts).map Prod.snd).filterMap okId ∨
          id ∉ claimed ∧ ∃ r ∈ rows, r.id = id ∧ r.id ∉ before := by
      rw [List.filterMap_cons] at h
      rw [List.map_cons, List.filterMap_cons]
      cases hm : okId member with
      | none =>
        simp only [hm] at h ⊢
        exact (ih h).imp_right (fun ⟨hn, hr⟩ => ⟨hc _ hn, hr⟩)
      | some m =>
        simp only [hm, List.mem_cons] at h ⊢
        rcases h with rfl | h
        · exact .inl (.inl rfl)
        · exact (ih h).imp Or.inr (fun ⟨hn, hr⟩ => ⟨hc _ hn, hr⟩)
    split_ifs at h with ht
    · exact keepMember claimed (fun _ hx => hx) h
    · split at h
      · rename_i r hr
        have hmem := List.mem_of_find?_eq_some hr
        have hprop := List.find?_some hr
        simp only [decide_eq_true_eq] at hprop
        simp only [List.filterMap_cons, okId, List.mem_cons] at h
        rcases h with rfl | h
        · exact .inr ⟨hprop.2.2, r, hmem, rfl, hprop.2.1⟩
        · rcases ih h with h | ⟨hn, hr⟩
          · left
            rw [List.map_cons, List.filterMap_cons]
            cases okId member <;> simp only [List.mem_cons, h, or_true]
          · exact .inr ⟨fun hc => hn (by simp [hc]), hr⟩
      · exact keepMember claimed (fun _ hx => hx) h

theorem claimKept_nodup {claimed : List SocketId}
    {ts : List (GroupConfig × Except SrtError SocketId)}
    (hc : ∀ id ∈ (ts.map Prod.snd).filterMap okId, id ∈ claimed)
    (hn : ((ts.map Prod.snd).filterMap okId).Nodup) :
    ((claimKept rows before claimed ts).filterMap okId).Nodup := by
  induction ts generalizing claimed with
  | nil => simp [claimKept]
  | cons p ts ih =>
    obtain ⟨t, member⟩ := p
    rw [List.map_cons, List.filterMap_cons] at hc hn
    have htail : ((ts.map Prod.snd).filterMap okId).Nodup := by
      cases hm : okId member <;> simp only [hm] at hn
      · exact hn
      · exact (List.nodup_cons.mp hn).2
    have hctail : ∀ id ∈ (ts.map Prod.snd).filterMap okId, id ∈ claimed := by
      intro id hid
      apply hc
      cases okId member <;> simp only [List.mem_cons, hid, or_true]
    have keepMember : ((member :: claimKept rows before claimed ts).filterMap okId).Nodup := by
      rw [List.filterMap_cons]
      cases hm : okId member with
      | none => exact ih hctail htail
      | some m =>
        simp only [hm] at hc hn ⊢
        refine List.nodup_cons.mpr ⟨fun hin => ?_, ih hctail htail⟩
        rcases mem_claimKept hin with h | ⟨h, _⟩
        · exact (List.nodup_cons.mp hn).1 h
        · exact h (hc m (by simp))
    simp only [claimKept]
    split_ifs
    · exact keepMember
    · split
      · rename_i r hr
        have hprop := List.find?_some hr
        simp only [decide_eq_true_eq] at hprop
        rw [List.filterMap_cons]
        simp only [okId]
        refine List.nodup_cons.mpr ⟨fun hin => ?_, ih (fun id hid => ?_) htail⟩
        · rcases mem_claimKept hin with h | ⟨h, _⟩
          · exact hprop.2.2 (hctail _ h)
          · exact h (by simp)
        · exact List.mem_append_left _ (hctail id hid)
      · exact keepMember

theorem claimKept_reported {claimed : List SocketId} {ts : List (GroupConfig × Except SrtError SocketId)}
    {i : ℕ} {t : GroupConfig} {member : Except SrtError SocketId} (hi : ts[i]? = some (t, member))
    (ht : t.unreported = false) : (claimKept rows before claimed ts)[i]? = some member := by
  induction ts generalizing claimed i with
  | nil => simp at hi
  | cons p ts ih =>
    obtain ⟨t₀, member₀⟩ := p
    simp only [claimKept]
    cases i with
    | zero =>
      simp only [List.getElem?_cons_zero, Option.some_inj, Prod.mk.injEq] at hi
      obtain ⟨rfl, rfl⟩ := hi
      rw [if_pos (GroupConfig.unreported_eq_false.mp ht), List.getElem?_cons_zero]
    | succ i =>
      rw [List.getElem?_cons_succ] at hi
      split_ifs
      · exact ih hi
      · split <;> exact ih hi

/-- A target that reported nothing takes a newly listed row of its token, or every such row has been
taken, before it or after. -/
theorem claimKept_unreported {claimed : List SocketId} {ts : List (GroupConfig × Except SrtError SocketId)}
    {i : ℕ} {t : GroupConfig} {member result : Except SrtError SocketId} (hi : ts[i]? = some (t, member))
    (ht : t.unreported = true) (hr : (claimKept rows before claimed ts)[i]? = some result) :
    (∃ r ∈ rows, r.token = t.token ∧ result = .ok r.id) ∨
      result = member ∧ ∀ r ∈ rows, r.token = t.token → r.id ∉ before →
        r.id ∈ claimed ∨ r.id ∈ (claimKept rows before claimed ts).filterMap okId := by
  induction ts generalizing claimed i with
  | nil => simp at hi
  | cons p ts ih =>
    obtain ⟨t₀, member₀⟩ := p
    simp only [claimKept] at hr ⊢
    -- a later target finds its row taken here, or by the rest of the pass
    have hlater {c : List SocketId} {head : Except SrtError SocketId} {j : ℕ} (hj : ts[j]? = some (t, member))
        (hres : (claimKept rows before c ts)[j]? = some result)
        (hc : ∀ id ∈ c, id ∈ claimed ∨ okId head = some id) :
        (∃ r ∈ rows, r.token = t.token ∧ result = .ok r.id) ∨
          result = member ∧ ∀ r ∈ rows, r.token = t.token → r.id ∉ before →
            r.id ∈ claimed ∨ r.id ∈ (head :: claimKept rows before c ts).filterMap okId := by
      apply (ih hj hres).imp_right
      rintro ⟨hm, hall⟩
      refine ⟨hm, fun r hmem htok hb => ?_⟩
      rw [List.mem_filterMap]
      rcases hall r hmem htok hb with h | h
      · apply (hc _ h).imp_right
        intro hhead
        exact ⟨head, List.mem_cons_self, hhead⟩
      · obtain ⟨m, hm, hid⟩ := List.mem_filterMap.mp h
        exact .inr ⟨m, List.mem_cons_of_mem _ hm, hid⟩
    cases i with
    | zero =>
      simp only [List.getElem?_cons_zero, Option.some_inj, Prod.mk.injEq] at hi
      obtain ⟨rfl, rfl⟩ := hi
      have hne : ¬(0 ≤ t₀.id ∨ t₀.errorcode ≠ 0) := by
        rw [← GroupConfig.unreported_eq_false, ht]
        simp
      simp only [if_neg hne] at hr ⊢
      cases hf : rows.find? (fun r => r.token = t₀.token ∧ r.id ∉ before ∧ r.id ∉ claimed) with
      | some r =>
        have hprop := List.find?_some hf
        simp only [decide_eq_true_eq] at hprop
        simp only [hf, List.getElem?_cons_zero, Option.some_inj] at hr
        exact .inl ⟨r, List.mem_of_find?_eq_some hf, hprop.1, hr.symm⟩
      | none =>
        simp only [hf, List.getElem?_cons_zero, Option.some_inj] at hr
        refine .inr ⟨hr.symm, fun r hmem htok hb => .inl ?_⟩
        by_contra hn
        exact absurd (List.find?_eq_none.mp hf r hmem) (by simp [htok, hb, hn])
    | succ i =>
      rw [List.getElem?_cons_succ] at hi
      split_ifs at hr ⊢ with h₀
      · exact hlater hi hr (fun id hid => .inl hid)
      · cases hf : rows.find? (fun r => r.token = t₀.token ∧ r.id ∉ before ∧ r.id ∉ claimed) with
        | some r =>
          simp only [hf] at hr ⊢
          refine hlater hi hr (fun id hid => ?_)
          rw [List.mem_append, List.mem_singleton] at hid
          exact hid.imp_right (fun h => by rw [okId, h])
        | none =>
          simp only [hf] at hr ⊢
          exact hlater hi hr (fun id hid => .inl hid)

end Claimed

/-- The ids libsrt wrote into the targets it reports as spawned. -/
def reportedIds (lib : Libsrt) (k : ℕ) (grp : SocketId) (endpoints : List GroupEndpoint) :
    List SocketId :=
  ((connectTargets lib k grp endpoints).map GroupConfig.result).filterMap okId

/-- The members a call spawned are distinct if libsrt's own reports are. -/
theorem connectGroup_nodup {lib : Libsrt} {k j : ℕ} {grp : SocketId}
    {endpoints : List GroupEndpoint} (h : (reportedIds lib k grp endpoints).Nodup) :
    ((connectGroup lib k j grp endpoints).members.filterMap okId).Nodup := by
  by_cases he : endpoints = []
  · simp [connectGroup, he]
  · simp only [connectGroup, he, if_false, connectMembers]
    split_ifs
    · apply claimKept_nodup
      · simp [List.map_snd_zip]
      · simpa [List.map_snd_zip, reportedIds] using h
    · exact h

/-- A spawned member was reported by libsrt, or is listed after the call only. -/
theorem mem_connectGroup {lib : Libsrt} {k j : ℕ} {grp : SocketId}
    {endpoints : List GroupEndpoint} {id : SocketId}
    (h : id ∈ (connectGroup lib k j grp endpoints).members.filterMap okId) :
    id ∈ reportedIds lib k grp endpoints ∨
      (∃ r ∈ readGroupRows lib k (j + 1) grp, r.id = id) ∧
        ∀ r ∈ readGroupRows lib k j grp, r.id ≠ id := by
  by_cases he : endpoints = []
  · simp [connectGroup, he] at h
  · simp only [connectGroup, he, if_false, connectMembers] at h
    split_ifs at h
    · rcases mem_claimKept h with h | ⟨_, r, hr, rfl, hb⟩
      · left
        simpa [List.map_snd_zip, reportedIds] using h
      · exact .inr ⟨⟨r, hr, rfl⟩, fun r' hr' he => hb (List.mem_map.mpr ⟨r', hr', he⟩)⟩
    · exact .inl h

/-- What the results of one call over some endpoints have to be, for the targets libsrt wrote and
the members it listed before and after. -/
structure Matched (endpoints : List GroupEndpoint) (targets : List GroupConfig)
    (before after : List GroupData) (members : List (Except SrtError SocketId)) : Prop where
  length : members.length = endpoints.length
  distinct : (members.filterMap okId).Nodup
  fresh : ∀ id ∈ members.filterMap okId, ∀ r ∈ before, r.id ≠ id
  /-- A target that reported an id or an error keeps it. -/
  reported : ∀ (i : ℕ) (t : GroupConfig), targets[i]? = some t → t.unreported = false →
    members[i]? = some t.result
  /-- Any other id was listed after the call, for a target that reported nothing. -/
  listed : ∀ (i : ℕ) (ep : GroupEndpoint) (t : GroupConfig) (id : SocketId), endpoints[i]? = some ep →
    targets[i]? = some t → members[i]? = some (.ok id) → t.result ≠ .ok id →
      (t.id < 0 ∧ t.errorcode = 0) ∧ ∃ r ∈ after, r.id = id ∧ r.token = ep.token
  /-- No such target fails while a new member of its token is left. -/
  exhausted : ∀ (i : ℕ) (ep : GroupEndpoint) (t : GroupConfig) (err : SrtError), endpoints[i]? = some ep →
    targets[i]? = some t → members[i]? = some (.error err) → t.id < 0 ∧ t.errorcode = 0 →
      ∀ r ∈ after, r.token = ep.token → (∀ b ∈ before, b.id ≠ r.id) → r.id ∈ members.filterMap okId

theorem connectTargets_token {lib : Libsrt} {k : ℕ} {grp : SocketId} {endpoints : List GroupEndpoint} {i : ℕ}
    {ep : GroupEndpoint} {t : GroupConfig} (he : endpoints[i]? = some ep)
    (ht : (connectTargets lib k grp endpoints)[i]? = some t) : t.token = ep.token := by
  simp only [connectTargets, List.getElem?_mapIdx, List.getElem?_map, he, Option.map_some, Option.some_inj] at ht
  rw [← ht]
  rfl

/-- A call matches its results with the targets and the listings, also where endpoints share a token, if the ids libsrt
reports are distinct and new. -/
theorem connectGroup_matched (lib : Libsrt) (k j : ℕ) (grp : SocketId) (endpoints : List GroupEndpoint)
    (hdistinct : (reportedIds lib k grp endpoints).Nodup)
    (hfresh : ∀ id ∈ reportedIds lib k grp endpoints, ∀ r ∈ readGroupRows lib k j grp, r.id ≠ id) :
    Matched endpoints (connectTargets lib k grp endpoints) (readGroupRows lib k j grp)
      (readGroupRows lib k (j + 1) grp) (connectGroup lib k j grp endpoints).members := by
  set targets := connectTargets lib k grp endpoints with htargets
  set members := (connectGroup lib k j grp endpoints).members with hmembers
  have hlen : members.length = endpoints.length := connectGroup_length ..
  have hzip {i : ℕ} {t : GroupConfig} (ht : targets[i]? = some t) :
      (targets.zip (targets.map GroupConfig.result))[i]? = some (t, t.result) := by
    rw [List.getElem?_zip_eq_some, List.getElem?_map, ht]
    exact ⟨rfl, rfl⟩
  have hreported (i : ℕ) (t : GroupConfig) (ht : targets[i]? = some t) (hu : t.unreported = false) :
      members[i]? = some t.result := by
    by_cases he : endpoints = []
    · simp [htargets, he, connectTargets] at ht
    · rw [hmembers, connectGroup, if_neg he, connectMembers]
      dsimp only
      split_ifs
      · exact claimKept_reported (hzip ht) hu
      · rw [List.getElem?_map, ← htargets, ht]
        rfl
  have hkept (i : ℕ) (t : GroupConfig) (result : Except SrtError SocketId) (ht : targets[i]? = some t)
      (hu : t.unreported = true) (hr : members[i]? = some result) :
      (∃ r ∈ readGroupRows lib k (j + 1) grp, r.token = t.token ∧ result = .ok r.id) ∨
        result = t.result ∧ ∀ r ∈ readGroupRows lib k (j + 1) grp, r.token = t.token →
          r.id ∉ (readGroupRows lib k j grp).map (·.id) →
            r.id ∈ (targets.map GroupConfig.result).filterMap okId ∨ r.id ∈ members.filterMap okId := by
    have he : endpoints ≠ [] := fun he => by simp [htargets, he, connectTargets] at ht
    have hany : targets.any GroupConfig.unreported = true :=
      List.any_eq_true.mpr ⟨t, List.mem_of_getElem? ht, hu⟩
    have hclaim : members = claimKept (readGroupRows lib k (j + 1) grp) ((readGroupRows lib k j grp).map (·.id))
        ((targets.map GroupConfig.result).filterMap okId) (targets.zip (targets.map GroupConfig.result)) := by
      rw [hmembers, connectGroup, if_neg he, connectMembers]
      exact if_pos hany
    rw [hclaim] at hr ⊢
    exact claimKept_unreported (hzip ht) hu hr
  constructor
  · exact hlen
  · exact connectGroup_nodup hdistinct
  · intro id hid
    rcases mem_connectGroup hid with h | ⟨-, h⟩
    · exact hfresh id h
    · exact h
  · exact hreported
  · intro i ep t id he ht hm hne
    cases hu : t.unreported with
    | false =>
      rw [hreported i t ht hu, Option.some_inj] at hm
      exact absurd hm hne
    | true =>
      refine ⟨GroupConfig.unreported_iff.mp hu, ?_⟩
      rcases hkept i t _ ht hu hm with ⟨r, hr, htok, hid⟩ | ⟨h, -⟩
      · exact ⟨r, hr, (Except.ok.inj hid).symm, htok.trans (connectTargets_token he ht)⟩
      · exact absurd h.symm hne
  · intro i ep t err he ht hm hu r hr htok hb
    rcases hkept i t _ ht (GroupConfig.unreported_iff.mpr hu) hm with ⟨r', -, -, h⟩ | ⟨-, hall⟩
    · cases h
    · have hnew : r.id ∉ (readGroupRows lib k j grp).map (·.id) := by
        intro hmem
        obtain ⟨b, hbm, hbid⟩ := List.mem_map.mp hmem
        exact hb b hbm hbid
      rcases hall r hr (htok.trans (connectTargets_token he ht).symm) hnew with h | h
      · -- an id a target reported is that target's result
        obtain ⟨result, hres, hid⟩ := List.mem_filterMap.mp h
        obtain ⟨t', ht', rfl⟩ := List.mem_map.mp hres
        obtain ⟨i', hi'⟩ := List.getElem?_of_mem ht'
        have hu' : t'.unreported = false := by
          by_contra hn
          rw [GroupConfig.result_unreported (Bool.eq_true_of_not_eq_false hn)] at hid
          cases hid
        exact List.mem_filterMap.mpr ⟨_, List.mem_of_getElem? (hreported i' t' hi' hu'), hid⟩
      · exact h

/-- Three endpoints of one token: one reported, one found in the listing, one lost. -/
theorem connectGroup_matched_shared :
    let ep : GroupEndpoint := ⟨.v4 0x0A000001 9000, none, 1, 7⟩
    let row := fun id => (⟨id, .connected, .idle, 1, 7⟩ : GroupData)
    let lib : Libsrt := { Libsrt.refusing with
      groupData := fun _ j _ => some (if j = 0 then [row 9] else [row 9, row 10, row 11])
      connectGroup := fun _ _ _ => (0, fun i => if i = 0 then (10, 0) else (-1, 0)) }
    (connectGroup lib 0 0 500 [ep, ep, ep]).members.filterMap okId = [10, 11] ∧
      Matched [ep, ep, ep] (connectTargets lib 0 500 [ep, ep, ep]) (readGroupRows lib 0 0 500)
        (readGroupRows lib 0 1 500) (connectGroup lib 0 0 500 [ep, ep, ep]).members :=
  ⟨by decide, connectGroup_matched _ 0 0 500 _ (by decide) (by decide)⟩

end SrtBridge
