import Mathlib.Data.List.Forall2
import SrtBridge.General.SwapScan
import SrtBridge.Members.Connect
import SrtBridge.Members.Plan

/-! One check of a group's watched members. The loop walks over the watched list
by index and takes a member out by swapping the last one into its place; the
replacements it spawns join the list at the end. -/

namespace SrtBridge

open General

/-- What the bridge does to the members of a group and what it sees of them, each
with the step it happens in. -/
inductive MemberEvent where
  /-- A member spawned into the group and reported as such. -/
  | spawn (k : ℕ) (id : SocketId) (endpoint : GroupEndpoint)
  /-- A look at a due member; `left`: what it supersedes after the look. -/
  | look (k : ℕ) (id : SocketId) (now : Instant) (verdict : Verdict) (resolveBy : Instant)
      (left : List SocketId)
  /-- A plan to replace `id`, carried out in the same step; `chain`: `id` and what
  it supersedes. -/
  | repair (k : ℕ) (id : SocketId) (chain : List SocketId) (plan : RepairPlan)
  | close (k : ℕ) (id : SocketId)
  deriving DecidableEq

def closeMembers (k : ℕ) (ids : List SocketId) : List MemberEvent := ids.map (.close k)

/-- What a check holds fixed: the listing and the time are read once. -/
structure CheckInput where
  grp : SocketId
  backup : Bool
  rows : List GroupData
  now : Instant

/-- The member and socket state of a member's first row in a listing. -/
def listedRow (rows : List GroupData) (id : SocketId) : Option (MemberStatus × SocketStatus) :=
  (rows.find? fun r => r.id = id).map fun r =>
    (mapMemberStatus r.memberstate, rawStateToStatus r.sockstate)

/-- Close what `w` superseded, once `w` has been up for the linger. Returns what
was closed. -/
def closeSuperseded (lib : Libsrt) (k : ℕ) (w : WatchedMember) (verdict : Verdict)
    (now : Instant) : WatchedMember × List SocketId :=
  if (verdict = .confirmed ∨ verdict = .masked) ∧ w.supersedes ≠ [] then
    let closeAt := w.closeSupersededAt.getD (now + supersededLinger lib k w.id)
    if closeAt ≤ now then
      ({ w with closeSupersededAt := some closeAt, supersedes := [] }, w.supersedes)
    else ({ w with closeSupersededAt := some closeAt }, [])
  else (w, [])

structure Look where
  verdict : Verdict
  /-- The member as the look leaves it. -/
  member : WatchedMember
  /-- What it superseded and the look closed. -/
  lingered : List SocketId
  next : Step

def lookAt (lib : Libsrt) (inp : CheckInput) (k : ℕ) (w : WatchedMember) : Look :=
  let verdict := classifyWatched w.live (listedRow inp.rows w.id) w.forced inp.backup
  let closed := closeSuperseded lib k w verdict inp.now
  let decided := nextStep closed.1 verdict inp.now
  ⟨verdict, decided.1, closed.2, decided.2⟩

def Look.events (l : Look) (k : ℕ) (now : Instant) : List MemberEvent :=
  .look k l.member.id now l.verdict l.member.resolveBy l.member.supersedes ::
    closeMembers k l.lingered

/-- Hand `chain` to the first member with id `other`, to close once that is up. -/
def handOver (other : SocketId) (chain : List SocketId) : List WatchedMember → List WatchedMember
  | [] => []
  | e :: es =>
    if e.id = other then { e with supersedes := e.supersedes ++ chain } :: es
    else e :: handOver other chain es

structure Repaired where
  watched : List WatchedMember
  spawned : List WatchedMember
  events : List MemberEvent

/-- Carry out `plan` for `w`, which is out of `watched`. Never called to wait. -/
def repairStranded (lib : Libsrt) (k : ℕ) (grp : SocketId) (w : WatchedMember) (plan : RepairPlan)
    (watched spawned : List WatchedMember) (now : Instant) : Repaired :=
  let chain := repairChain w
  match plan with
  | .joinSibling _ => ⟨watched, spawned, closeMembers k chain⟩
  | .handToSibling other =>
    if watched.any (fun e => e.id = other) then ⟨handOver other chain watched, spawned, []⟩
    else if spawned.any (fun e => e.id = other) then ⟨watched, handOver other chain spawned, []⟩
    else ⟨watched, spawned, closeMembers k chain⟩
  | .closeNow => ⟨watched, spawned, closeMembers k chain⟩
  | .closeThenSpawn =>
    match (connectGroup lib k 0 grp [w.endpoint]).single with
    | .ok new =>
      let next := { WatchedMember.spawned lib k new w.endpoint now with repairs := w.repairs + 1 }
      ⟨watched, spawned ++ [next], closeMembers k chain ++ [.spawn k new w.endpoint]⟩
    | .error _ => ⟨watched, spawned, closeMembers k chain⟩
  | .spawnThenClose =>
    match (connectGroup lib k 0 grp [w.endpoint]).single with
    | .ok new =>
      let next := { WatchedMember.spawned lib k new w.endpoint now with
        repairs := w.repairs + 1, supersedes := chain }
      ⟨watched, spawned ++ [next], [.spawn k new w.endpoint]⟩
    | .error _ => ⟨watched, spawned, closeMembers k chain⟩
  | .wait => ⟨watched, spawned, []⟩

/-- A check under way, at the member numbered `idx`. -/
structure Check where
  watched : List WatchedMember
  idx : ℕ
  spawned : List WatchedMember
  step : ℕ
  trace : List MemberEvent

def checkTurn (lib : Libsrt) (inp : CheckInput) (c : Check) : Check :=
  match c.watched[c.idx]? with
  | none => c
  | some w =>
    if inp.now < w.notBefore then { c with idx := c.idx + 1, step := c.step + 1 }
    else
      let k := c.step
      let l := lookAt lib inp k w
      let watched := c.watched.set c.idx l.member
      let trace := c.trace ++ l.events k inp.now
      match l.next with
      | .keep => ⟨watched, c.idx + 1, c.spawned, k + 1, trace⟩
      | .recheck t =>
        ⟨c.watched.set c.idx { l.member with notBefore := t }, c.idx + 1, c.spawned, k + 1, trace⟩
      | .drop =>
        ⟨swapRemove watched c.idx, c.idx, c.spawned, k + 1,
          trace ++ closeMembers k l.member.supersedes⟩
      | .abandon =>
        ⟨swapRemove watched c.idx, c.idx, c.spawned, k + 1,
          trace ++ closeMembers k (l.member.id :: l.member.supersedes)⟩
      | .repair =>
        match planRepair lib k l.member (l.verdict = .brokenLive) watched c.spawned inp.rows
            inp.now with
        | .wait =>
          ⟨c.watched.set c.idx { l.member with waiting := true }, c.idx + 1, c.spawned, k + 1,
            trace⟩
        | plan =>
          let r := repairStranded lib k inp.grp l.member plan (swapRemove watched c.idx) c.spawned
            inp.now
          ⟨r.watched, c.idx, r.spawned, k + 1,
            trace ++ .repair k l.member.id (repairChain l.member) plan :: r.events⟩

def checkLoop (lib : Libsrt) (inp : CheckInput) : ℕ → Check → Check
  | 0, c => c
  | n + 1, c => if c.idx < c.watched.length then checkLoop lib inp n (checkTurn lib inp c) else c

section Look

variable (lib : Libsrt) (inp : CheckInput) (k : ℕ) (w : WatchedMember)

/-- Nothing is closed, or all the member supersedes once that is up. -/
theorem closeSuperseded_cases (verdict : Verdict) (now : Instant) :
    (∃ c, closeSuperseded lib k w verdict now = ({ w with closeSupersededAt := c }, [])) ∨
      (verdict = .confirmed ∨ verdict = .masked) ∧
        ∃ c, closeSuperseded lib k w verdict now =
          ({ w with closeSupersededAt := c, supersedes := [] }, w.supersedes) := by
  unfold closeSuperseded
  split_ifs with hup
  · dsimp only
    split_ifs
    · exact .inr ⟨hup.1, _, rfl⟩
    · exact .inl ⟨_, rfl⟩
  · exact .inl ⟨w.closeSupersededAt, rfl⟩

theorem lookAt_verdict : (lookAt lib inp k w).verdict =
    classifyWatched w.live (listedRow inp.rows w.id) w.forced inp.backup := rfl

/-- A look settles what the member supersedes, then decides. -/
theorem lookAt_cases :
    ∃ c s, (lookAt lib inp k w).member = (nextStep { w with closeSupersededAt := c, supersedes := s }
        (lookAt lib inp k w).verdict inp.now).1 ∧
      (lookAt lib inp k w).next = (nextStep { w with closeSupersededAt := c, supersedes := s }
        (lookAt lib inp k w).verdict inp.now).2 ∧
      (s = w.supersedes ∧ (lookAt lib inp k w).lingered = [] ∨
        ((lookAt lib inp k w).verdict = .confirmed ∨ (lookAt lib inp k w).verdict = .masked) ∧
          s = [] ∧ (lookAt lib inp k w).lingered = w.supersedes) := by
  rcases closeSuperseded_cases lib k w (lookAt lib inp k w).verdict inp.now with
    ⟨c, h⟩ | ⟨hup, c, h⟩
  · refine ⟨c, w.supersedes, ?_, ?_, .inl ⟨rfl, ?_⟩⟩ <;>
      simp only [lookAt_verdict] at h ⊢ <;> simp only [lookAt, h]
  · refine ⟨c, [], ?_, ?_, .inr ⟨hup, rfl, ?_⟩⟩ <;>
      simp only [lookAt_verdict] at h ⊢ <;> simp only [lookAt, h]

@[simp] theorem lookAt_id : (lookAt lib inp k w).member.id = w.id := by
  obtain ⟨c, s, h, -⟩ := lookAt_cases lib inp k w
  rw [h, nextStep_id]

@[simp] theorem lookAt_endpoint : (lookAt lib inp k w).member.endpoint = w.endpoint := by
  obtain ⟨c, s, h, -⟩ := lookAt_cases lib inp k w
  rw [h, nextStep_endpoint]

@[simp] theorem lookAt_live : (lookAt lib inp k w).member.live = w.live := by
  obtain ⟨c, s, h, -⟩ := lookAt_cases lib inp k w
  rw [h, nextStep_live]

@[simp] theorem lookAt_notBefore : (lookAt lib inp k w).member.notBefore = w.notBefore := by
  obtain ⟨c, s, h, -⟩ := lookAt_cases lib inp k w
  rw [h, nextStep_notBefore]

@[simp] theorem lookAt_resolveBy : (lookAt lib inp k w).member.resolveBy = w.resolveBy := by
  obtain ⟨c, s, h, -⟩ := lookAt_cases lib inp k w
  rw [h, nextStep_resolveBy]

/-- What a member supersedes after a look, and what the look closed of it. -/
theorem lookAt_supersedes :
    (lookAt lib inp k w).member.supersedes = w.supersedes ∧ (lookAt lib inp k w).lingered = [] ∨
      ((lookAt lib inp k w).verdict = .confirmed ∨ (lookAt lib inp k w).verdict = .masked) ∧
        (lookAt lib inp k w).member.supersedes = [] ∧
        (lookAt lib inp k w).lingered = w.supersedes := by
  obtain ⟨c, s, h, -, hs⟩ := lookAt_cases lib inp k w
  rw [h, nextStep_supersedes]
  exact hs

theorem lookAt_strandedSince : (lookAt lib inp k w).member.strandedSince =
    match (lookAt lib inp k w).verdict with
    | .gone => w.strandedSince
    | .stranded | .brokenLive => some (w.strandedSince.getD inp.now)
    | _ => none := by
  obtain ⟨c, s, h, -⟩ := lookAt_cases lib inp k w
  rw [h]
  cases (lookAt lib inp k w).verdict <;> rfl

variable {lib inp k w}

theorem lookAt_drop : (lookAt lib inp k w).next = .drop ↔
    (lookAt lib inp k w).verdict = .gone ∨ (lookAt lib inp k w).verdict = .confirmed ∧
      (lookAt lib inp k w).member.supersedes = [] := by
  obtain ⟨c, s, hm, hn, -⟩ := lookAt_cases lib inp k w
  rw [hm, nextStep_supersedes, hn]
  exact nextStep_drop

theorem lookAt_recheck {t : Instant} (h : (lookAt lib inp k w).next = .recheck t) :
    (lookAt lib inp k w).verdict = .masked ∧ t = inp.now + maskedMemberRecheck := by
  obtain ⟨c, s, hm, hn, -⟩ := lookAt_cases lib inp k w
  exact (nextStep_recheck (hn.symm.trans h)).imp_right And.right

theorem lookAt_abandon (h : (lookAt lib inp k w).next = .abandon) :
    (lookAt lib inp k w).verdict = .handshaking ∧ w.resolveBy ≤ inp.now := by
  obtain ⟨c, s, hm, hn, -⟩ := lookAt_cases lib inp k w
  have ha := nextStep_abandon (hn.symm.trans h)
  exact ⟨ha.1, ha.2.1⟩

theorem lookAt_repair (h : (lookAt lib inp k w).next = .repair) :
    ((lookAt lib inp k w).verdict = .stranded ∨ (lookAt lib inp k w).verdict = .brokenLive) ∧
        strandedMemberGrace ≤ inp.now - w.strandedSince.getD inp.now ∨
      (lookAt lib inp k w).verdict = .handshaking ∧ w.resolveBy ≤ inp.now ∧
        isTerminalStatus w.live = false := by
  obtain ⟨c, s, hm, hn, -⟩ := lookAt_cases lib inp k w
  have hr := nextStep_repair (hn.symm.trans h)
  exact hr

theorem mem_lookAt_lingered {id : SocketId} (h : id ∈ (lookAt lib inp k w).lingered) :
    id ∈ w.supersedes := by
  rcases lookAt_supersedes lib inp k w with ⟨-, hl⟩ | ⟨-, -, hl⟩
  · simp [hl] at h
  · rwa [hl] at h

theorem mem_lookAt_supersedes {id : SocketId} (h : id ∈ (lookAt lib inp k w).member.supersedes) :
    id ∈ w.supersedes := by
  rcases lookAt_supersedes lib inp k w with ⟨hs, -⟩ | ⟨-, hs, -⟩
  · rwa [hs] at h
  · simp [hs] at h

/-- A member that is let go or kept for another look was not to be replaced. -/
theorem lookAt_lingered_of_repair (h : (lookAt lib inp k w).next = .repair) :
    (lookAt lib inp k w).lingered = [] ∧ (lookAt lib inp k w).member.supersedes = w.supersedes := by
  rcases lookAt_supersedes lib inp k w with ⟨hs, hl⟩ | ⟨hup, -⟩
  · exact ⟨hl, hs⟩
  · rcases hup with hup | hup <;> rcases lookAt_repair h with ⟨hv | hv, -⟩ | ⟨hv, -⟩ <;>
      rw [hup] at hv <;> cases hv

theorem lookAt_repairChain (h : (lookAt lib inp k w).next = .repair) :
    repairChain (lookAt lib inp k w).member = repairChain w := by
  rw [repairChain, (lookAt_lingered_of_repair h).2, lookAt_id, repairChain]

end Look

/-- What tells a member apart in a check, and whether it is due. -/
def WatchedMember.key (w : WatchedMember) : SocketId × Instant := (w.id, w.notBefore)

section HandOver

variable (other : SocketId) (chain : List SocketId)

/-- `xs'` is `xs` with `chain` handed to one of its members, with id `other`. -/
def HandedTo (other : SocketId) (chain : List SocketId) (xs xs' : List WatchedMember) : Prop :=
  ∃ a e b, xs = a ++ e :: b ∧ e.id = other ∧
    xs' = a ++ { e with supersedes := e.supersedes ++ chain } :: b

theorem handOver_handedTo {xs : List WatchedMember} (h : ∃ e ∈ xs, e.id = other) :
    HandedTo other chain xs (handOver other chain xs) := by
  induction xs with
  | nil => simp at h
  | cons x xs ih =>
    by_cases hx : x.id = other
    · exact ⟨[], x, xs, rfl, hx, by simp [handOver, hx]⟩
    · obtain ⟨a, e, b, rfl, he, hxs⟩ := ih (by simpa [hx] using h)
      exact ⟨x :: a, e, b, rfl, he, by simp [handOver, hx, hxs]⟩

theorem handOver_append_left {xs ys : List WatchedMember} (h : ∃ e ∈ xs, e.id = other) :
    handOver other chain (xs ++ ys) = handOver other chain xs ++ ys := by
  induction xs with
  | nil => simp at h
  | cons x xs ih =>
    by_cases hx : x.id = other
    · simp [handOver, hx]
    · simp [handOver, hx, ih (by simpa [hx] using h)]

theorem handOver_append_right {xs ys : List WatchedMember} (h : ∀ e ∈ xs, e.id ≠ other) :
    handOver other chain (xs ++ ys) = xs ++ handOver other chain ys := by
  induction xs with
  | nil => rfl
  | cons x xs ih => simp [handOver, h x (by simp), ih fun e he => h e (by simp [he])]

theorem handOver_keys (xs : List WatchedMember) :
    (handOver other chain xs).map WatchedMember.key = xs.map WatchedMember.key := by
  induction xs with
  | nil => rfl
  | cons x xs ih =>
    by_cases hx : x.id = other
    · simp [handOver, hx, WatchedMember.key]
    · simp [handOver, hx, ih]

variable {other chain}

theorem HandedTo.append {xs xs' : List WatchedMember} (h : HandedTo other chain xs xs')
    (front back : List WatchedMember) :
    HandedTo other chain (front ++ xs ++ back) (front ++ xs' ++ back) := by
  obtain ⟨a, e, b, rfl, he, rfl⟩ := h
  exact ⟨front ++ a, e, b ++ back, by simp, he, by simp⟩

/-- `v` is `u`, or what `u` becomes when `chain` is handed to it. -/
def Handed (other : SocketId) (chain : List SocketId) (u v : WatchedMember) : Prop :=
  v = u ∨ u.id = other ∧ v = { u with supersedes := u.supersedes ++ chain }

theorem HandedTo.forall₂ {xs xs' : List WatchedMember} (h : HandedTo other chain xs xs') :
    List.Forall₂ (Handed other chain) xs xs' := by
  have hrefl (ys : List WatchedMember) : List.Forall₂ (Handed other chain) ys ys :=
    List.forall₂_same.mpr fun _ _ => .inl rfl
  obtain ⟨a, e, b, rfl, he, rfl⟩ := h
  exact List.rel_append (hrefl a) (.cons (.inr ⟨he, rfl⟩) (hrefl b))

theorem exists_of_forall₂ {R : WatchedMember → WatchedMember → Prop} {xs ys : List WatchedMember}
    (h : List.Forall₂ R xs ys) : (∀ v ∈ ys, ∃ u ∈ xs, R u v) ∧ ∀ u ∈ xs, ∃ v ∈ ys, R u v := by
  induction h with
  | nil => simp
  | cons hxy _ ih =>
    refine ⟨fun v hv => ?_, fun u hu => ?_⟩
    · rcases List.mem_cons.mp hv with rfl | hv
      · exact ⟨_, List.mem_cons_self .., hxy⟩
      · obtain ⟨u, hu, hr⟩ := ih.1 v hv
        exact ⟨u, List.mem_cons_of_mem _ hu, hr⟩
    · rcases List.mem_cons.mp hu with rfl | hu
      · exact ⟨_, List.mem_cons_self .., hxy⟩
      · obtain ⟨v, hv, hr⟩ := ih.2 u hu
        exact ⟨v, List.mem_cons_of_mem _ hv, hr⟩

/-- A hand-over within three lists in a row, list by list. -/
theorem HandedTo.split {s r p s' r' p' : List WatchedMember}
    (h : HandedTo other chain (s ++ r ++ p) (s' ++ r' ++ p')) (hs : s'.length = s.length)
    (hr : r'.length = r.length) :
    List.Forall₂ (Handed other chain) s s' ∧ List.Forall₂ (Handed other chain) r r' ∧
      List.Forall₂ (Handed other chain) p p' := by
  have hall := h.forall₂
  have hlen : (s' ++ r').length = (s ++ r).length := by simp [hs, hr]
  have hsr := List.forall₂_take_append _ _ _ hall
  have hp := List.forall₂_drop_append _ _ _ hall
  rw [hlen, List.take_left] at hsr
  rw [hlen, List.drop_left] at hp
  have hs' := List.forall₂_take_append _ _ _ hsr
  have hr' := List.forall₂_drop_append _ _ _ hsr
  rw [hs, List.take_left] at hs'
  rw [hs, List.drop_left] at hr'
  exact ⟨hs', hr', hp⟩

end HandOver

/-- The plan for a member the look of step `k` chose to replace. -/
def planAt (lib : Libsrt) (inp : CheckInput) (k : ℕ) (seen : List WatchedMember) (w : WatchedMember)
    (unseen spawned : List WatchedMember) : RepairPlan :=
  let l := lookAt lib inp k w
  planRepair lib k l.member (l.verdict = .brokenLive) (seen ++ l.member :: unseen) spawned inp.rows
    inp.now

/-- What a look that chooses a replacement does before the replacement. -/
def repairEvents (lib : Libsrt) (inp : CheckInput) (k : ℕ) (w : WatchedMember) (plan : RepairPlan) :
    List MemberEvent :=
  (lookAt lib inp k w).events k inp.now ++ [.repair k w.id (repairChain w) plan]

def replacement (lib : Libsrt) (inp : CheckInput) (k : ℕ) (w : WatchedMember) (new : SocketId) :
    WatchedMember :=
  { WatchedMember.spawned lib k new w.endpoint inp.now with repairs := w.repairs + 1 }

/-- The exits of a turn of the loop at the member `w`, the others split into those
before the cursor and those after it: the lists it leaves and what it did. -/
inductive Exit (lib : Libsrt) (inp : CheckInput) (k : ℕ) (seen : List WatchedMember)
    (w : WatchedMember) (unseen spawned : List WatchedMember) :
    List WatchedMember → List WatchedMember → List WatchedMember → List MemberEvent → Prop
  | later (h : inp.now < w.notBefore) :
      Exit lib inp k seen w unseen spawned (seen ++ [w]) unseen spawned []
  | keep {w' : WatchedMember} {b : Bool} (hd : w.notBefore ≤ inp.now)
      (hn : (lookAt lib inp k w).next = .keep ∨ (lookAt lib inp k w).next = .repair ∧
        planAt lib inp k seen w unseen spawned = .wait)
      (hk : w' = { (lookAt lib inp k w).member with waiting := b }) :
      Exit lib inp k seen w unseen spawned (seen ++ [w']) unseen spawned
        ((lookAt lib inp k w).events k inp.now)
  | recheck {t : Instant} (hd : w.notBefore ≤ inp.now)
      (hn : (lookAt lib inp k w).next = .recheck t) :
      Exit lib inp k seen w unseen spawned
        (seen ++ [{ (lookAt lib inp k w).member with notBefore := t }]) unseen spawned
        ((lookAt lib inp k w).events k inp.now)
  | drop (hd : w.notBefore ≤ inp.now) (hn : (lookAt lib inp k w).next = .drop) :
      Exit lib inp k seen w unseen spawned seen (lastToFront unseen) spawned
        ((lookAt lib inp k w).events k inp.now ++
          closeMembers k (lookAt lib inp k w).member.supersedes)
  | abandon (hd : w.notBefore ≤ inp.now) (hn : (lookAt lib inp k w).next = .abandon) :
      Exit lib inp k seen w unseen spawned seen (lastToFront unseen) spawned
        ((lookAt lib inp k w).events k inp.now ++
          closeMembers k (w.id :: (lookAt lib inp k w).member.supersedes))
  | close {plan : RepairPlan} (hd : w.notBefore ≤ inp.now)
      (hn : (lookAt lib inp k w).next = .repair)
      (hp : planAt lib inp k seen w unseen spawned = plan)
      (hw : plan ≠ .wait) (hh : ∀ other, plan ≠ .handToSibling other) :
      Exit lib inp k seen w unseen spawned seen (lastToFront unseen) spawned
        (repairEvents lib inp k w plan ++ closeMembers k (repairChain w))
  | hand {other : SocketId} {seen' rest' spawned' : List WatchedMember} (hd : w.notBefore ≤ inp.now)
      (hn : (lookAt lib inp k w).next = .repair)
      (hp : planAt lib inp k seen w unseen spawned = .handToSibling other)
      (hh : HandedTo other (repairChain w) (seen ++ lastToFront unseen ++ spawned)
        (seen' ++ rest' ++ spawned'))
      (hs : seen'.map WatchedMember.key = seen.map WatchedMember.key)
      (hr : rest'.map WatchedMember.key = (lastToFront unseen).map WatchedMember.key) :
      Exit lib inp k seen w unseen spawned seen' rest' spawned'
        (repairEvents lib inp k w (.handToSibling other))
  | closeSpawn {new : SocketId} (hd : w.notBefore ≤ inp.now)
      (hn : (lookAt lib inp k w).next = .repair)
      (hp : planAt lib inp k seen w unseen spawned = .closeThenSpawn)
      (hc : (connectGroup lib k 0 inp.grp [w.endpoint]).single = .ok new) :
      Exit lib inp k seen w unseen spawned seen (lastToFront unseen)
        (spawned ++ [replacement lib inp k w new])
        (repairEvents lib inp k w .closeThenSpawn ++ closeMembers k (repairChain w) ++
          [.spawn k new w.endpoint])
  | overlap {new : SocketId} (hd : w.notBefore ≤ inp.now)
      (hn : (lookAt lib inp k w).next = .repair)
      (hp : planAt lib inp k seen w unseen spawned = .spawnThenClose)
      (hc : (connectGroup lib k 0 inp.grp [w.endpoint]).single = .ok new) :
      Exit lib inp k seen w unseen spawned seen (lastToFront unseen)
        (spawned ++ [{ replacement lib inp k w new with supersedes := repairChain w }])
        (repairEvents lib inp k w .spawnThenClose ++ [.spawn k new w.endpoint])

theorem sibling_of_handToSibling {lib : Libsrt} {inp : CheckInput} {k : ℕ} {w : WatchedMember}
    {seen unseen spawned : List WatchedMember} {other : SocketId}
    (hp : planAt lib inp k seen w unseen spawned = .handToSibling other) :
    ∃ e ∈ seen ++ lastToFront unseen ++ spawned, e.id = other := by
  have hm (e : WatchedMember) : e ∈ lastToFront unseen ↔ e ∈ unseen :=
    (lastToFront_perm unseen).mem_iff
  rcases findSibling_watched (planRepair_handToSibling hp).1 with ⟨e, he, rfl, -⟩ | ⟨hn, e, he, rfl⟩
  · exact ⟨e, by simp [he], rfl⟩
  · refine ⟨e, ?_, rfl⟩
    simp only [mem_repairChain, lookAt_id, not_or] at hn
    have hne : e ≠ (lookAt lib inp k w).member := fun h => hn.2 (by rw [h, lookAt_id])
    simpa [hm, hne] using he

/-- A repair other than waiting takes one of the exits. -/
theorem repairStranded_exit {lib : Libsrt} {inp : CheckInput} {k : ℕ} {seen : List WatchedMember}
    {w : WatchedMember} {unseen spawned : List WatchedMember} {plan : RepairPlan}
    (hd : w.notBefore ≤ inp.now) (hn : (lookAt lib inp k w).next = .repair)
    (hp : planAt lib inp k seen w unseen spawned = plan) (hw : plan ≠ .wait) :
    ∃ seen' rest' spawned' events,
      Exit lib inp k seen w unseen spawned seen' rest' spawned'
        (repairEvents lib inp k w plan ++ events) ∧ seen'.length = seen.length ∧
      repairStranded lib k inp.grp (lookAt lib inp k w).member plan (seen ++ lastToFront unseen) spawned
        inp.now = ⟨seen' ++ rest', spawned', events⟩ := by
  have hchain := lookAt_repairChain hn
  have hrep : (lookAt lib inp k w).member.repairs = w.repairs := by
    obtain ⟨c, s, h, -⟩ := lookAt_cases lib inp k w
    rw [h, nextStep_repairs]
  have closed (hh : ∀ other, plan ≠ .handToSibling other) :=
    Exit.close hd hn hp hw hh
  cases plan with
  | wait => exact absurd rfl hw
  | closeNow =>
    exact ⟨_, _, _, _, closed (by simp), rfl, by simp [repairStranded, hchain]⟩
  | joinSibling other =>
    exact ⟨_, _, _, _, closed (by simp), rfl, by simp [repairStranded, hchain]⟩
  | closeThenSpawn =>
    cases hc : (connectGroup lib k 0 inp.grp [w.endpoint]).single with
    | error err => exact ⟨_, _, _, _, closed (by simp), rfl, by simp [repairStranded, hchain, hc]⟩
    | ok new =>
      refine ⟨_, _, _, _, by simpa using Exit.closeSpawn hd hn hp hc, rfl, ?_⟩
      simp [repairStranded, hchain, hc, hrep, replacement]
  | spawnThenClose =>
    cases hc : (connectGroup lib k 0 inp.grp [w.endpoint]).single with
    | error err => exact ⟨_, _, _, _, closed (by simp), rfl, by simp [repairStranded, hchain, hc]⟩
    | ok new =>
      refine ⟨_, _, _, _, Exit.overlap hd hn hp hc, rfl, ?_⟩
      simp [repairStranded, hchain, hc, hrep, replacement]
  | handToSibling other =>
    have hsib := sibling_of_handToSibling hp
    by_cases hseen : ∃ e ∈ seen, e.id = other
    · refine ⟨handOver other (repairChain w) seen, lastToFront unseen, spawned, [], ?_, ?_, ?_⟩
      · rw [List.append_nil]
        refine .hand hd hn hp ?_ (handOver_keys _ _ _) rfl
        simpa using (handOver_handedTo other (repairChain w) hseen).append []
          (lastToFront unseen ++ spawned)
      · simpa using congrArg List.length (handOver_keys other (repairChain w) seen)
      · have hany : (seen ++ lastToFront unseen).any (fun e => e.id = other) = true := by
          simpa using Or.inl hseen
        simp only [repairStranded, hany, if_true, hchain, handOver_append_left _ _ hseen]
    · have hnot : ∀ e ∈ seen, e.id ≠ other := fun e he h => hseen ⟨e, he, h⟩
      by_cases hrest : ∃ e ∈ lastToFront unseen, e.id = other
      · refine ⟨seen, handOver other (repairChain w) (lastToFront unseen), spawned, [], ?_, rfl, ?_⟩
        · rw [List.append_nil]
          refine .hand hd hn hp ?_ rfl (handOver_keys ..)
          simpa using (handOver_handedTo other (repairChain w) hrest).append seen spawned
        · have hany : (seen ++ lastToFront unseen).any (fun e => e.id = other) = true := by
            simpa using Or.inr hrest
          simp only [repairStranded, hany, if_true, hchain, handOver_append_right _ _ hnot]
      · have hsp : ∃ e ∈ spawned, e.id = other := by
          obtain ⟨e, he, hid⟩ := hsib
          rcases List.mem_append.mp he with he | he
          · rcases List.mem_append.mp he with he | he
            · exact absurd hid (hnot e he)
            · exact absurd ⟨e, he, hid⟩ hrest
          · exact ⟨e, he, hid⟩
        refine ⟨seen, lastToFront unseen, handOver other (repairChain w) spawned, [], ?_, rfl, ?_⟩
        · rw [List.append_nil]
          refine .hand hd hn hp ?_ rfl rfl
          simpa using (handOver_handedTo other (repairChain w) hsp).append
            (seen ++ lastToFront unseen) []
        · have hnone : (seen ++ lastToFront unseen).any (fun e => e.id = other) = false := by
            simpa using ⟨hnot, fun e he h => hrest ⟨e, he, h⟩⟩
          have hany : spawned.any (fun e => e.id = other) = true := by simpa using hsp
          simp only [repairStranded, hnone, hany, if_true, Bool.false_eq_true, if_false, hchain]

theorem checkTurn_exit (lib : Libsrt) (inp : CheckInput) (k : ℕ) (seen : List WatchedMember)
    (w : WatchedMember) (unseen spawned : List WatchedMember) (trace : List MemberEvent) :
    ∃ seen' unseen' spawned' events, Exit lib inp k seen w unseen spawned seen' unseen' spawned' events ∧
      checkTurn lib inp ⟨seen ++ w :: unseen, seen.length, spawned, k, trace⟩ =
        ⟨seen' ++ unseen', seen'.length, spawned', k + 1, trace ++ events⟩ := by
  have hget : (seen ++ w :: unseen)[seen.length]? = some w := by simp
  simp only [checkTurn, hget, set_append_cons, swapRemove_append_cons]
  by_cases hd : inp.now < w.notBefore
  · exact ⟨_, _, _, _, .later hd, by simp [hd]⟩
  simp only [hd, if_false]
  have hd : w.notBefore ≤ inp.now := not_lt.mp hd
  cases hn : (lookAt lib inp k w).next with
  | keep =>
    have hk : (lookAt lib inp k w).member =
      { (lookAt lib inp k w).member with waiting := (lookAt lib inp k w).member.waiting } := rfl
    exact ⟨_, _, _, _, .keep hd (.inl hn) hk, by simp⟩
  | recheck t => exact ⟨_, _, _, _, .recheck hd hn, by simp⟩
  | drop => exact ⟨_, _, _, _, .drop hd hn, by simp⟩
  | abandon => exact ⟨_, _, _, _, .abandon hd hn, by simp⟩
  | repair =>
    have hplan : planRepair lib k (lookAt lib inp k w).member
        ((lookAt lib inp k w).verdict = .brokenLive) (seen ++ (lookAt lib inp k w).member :: unseen)
        spawned inp.rows inp.now = planAt lib inp k seen w unseen spawned := rfl
    simp only [hplan]
    by_cases hw : planAt lib inp k seen w unseen spawned = .wait
    · refine ⟨_, _, _, _, .keep (b := true) hd (.inr ⟨hn, hw⟩) rfl, ?_⟩
      simp only [hw, List.length_append, List.length_singleton, List.append_assoc,
        List.singleton_append]
    · obtain ⟨seen', rest', spawned', events, he, hlen, hr⟩ := repairStranded_exit hd hn rfl hw
      refine ⟨_, _, _, _, he, ?_⟩
      cases hp : planAt lib inp k seen w unseen spawned with
      | wait => exact absurd hp hw
      | _ => rw [hp] at hr; simp [hr, hlen, repairEvents, lookAt_repairChain hn]

section Exits

variable {lib : Libsrt} {inp : CheckInput} {k : ℕ} {seen : List WatchedMember} {w : WatchedMember}
  {unseen spawned seen' unseen' spawned' : List WatchedMember} {events : List MemberEvent}

variable (lib inp k seen w unseen spawned)

/-- `v` is what a turn leaves of the member `w` it looks at, if that stays. -/
inductive Kept : WatchedMember → Prop
  | later (h : inp.now < w.notBefore) : Kept w
  | keep {v : WatchedMember} {b : Bool} (hd : w.notBefore ≤ inp.now)
      (hn : (lookAt lib inp k w).next = .keep ∨ (lookAt lib inp k w).next = .repair ∧
        planAt lib inp k seen w unseen spawned = .wait)
      (hk : v = { (lookAt lib inp k w).member with waiting := b }) : Kept v
  | recheck {t : Instant} (hd : w.notBefore ≤ inp.now)
      (hn : (lookAt lib inp k w).next = .recheck t) :
      Kept { (lookAt lib inp k w).member with notBefore := t }

/-- `v` is what a turn at `w` leaves of another member `u`. -/
inductive Passed (u : WatchedMember) : WatchedMember → Prop
  | same : Passed u u
  | handed (hd : w.notBefore ≤ inp.now) (hn : (lookAt lib inp k w).next = .repair)
      (hp : planAt lib inp k seen w unseen spawned = .handToSibling u.id) :
      Passed u { u with supersedes := u.supersedes ++ repairChain w }

/-- `v` is a replacement for `w`, spawned by a turn at `w`. -/
inductive Replaces : WatchedMember → Prop
  | closed {new : SocketId} (hd : w.notBefore ≤ inp.now) (hn : (lookAt lib inp k w).next = .repair)
      (hp : planAt lib inp k seen w unseen spawned = .closeThenSpawn)
      (hc : (connectGroup lib k 0 inp.grp [w.endpoint]).single = .ok new) :
      Replaces (replacement lib inp k w new)
  | overlaps {new : SocketId} (hd : w.notBefore ≤ inp.now)
      (hn : (lookAt lib inp k w).next = .repair)
      (hp : planAt lib inp k seen w unseen spawned = .spawnThenClose)
      (hc : (connectGroup lib k 0 inp.grp [w.endpoint]).single = .ok new) :
      Replaces { replacement lib inp k w new with supersedes := repairChain w }

variable {lib inp k seen w unseen spawned}

section Origin

variable {u v : WatchedMember}

theorem Passed.same_member (h : Passed lib inp k seen w unseen spawned u v) :
    v.id = u.id ∧ v.endpoint = u.endpoint ∧ v.live = u.live ∧ v.notBefore = u.notBefore ∧
      v.forced = u.forced := by
  cases h <;> exact ⟨rfl, rfl, rfl, rfl, rfl⟩

theorem Passed.chain_mono (h : Passed lib inp k seen w unseen spawned u v) {id : SocketId}
    (hid : id ∈ repairChain u) : id ∈ repairChain v := by
  cases h with
  | same => exact hid
  | handed => simp only [mem_repairChain, List.mem_append] at hid ⊢; tauto

theorem Kept.id_eq (h : Kept lib inp k seen w unseen spawned v) : v.id = w.id := by
  cases h with
  | later => rfl
  | keep _ _ hk => rw [hk]; exact lookAt_id ..
  | recheck => exact lookAt_id ..

theorem Kept.endpoint_eq (h : Kept lib inp k seen w unseen spawned v) :
    v.endpoint = w.endpoint := by
  cases h with
  | later => rfl
  | keep _ _ hk => rw [hk]; exact lookAt_endpoint ..
  | recheck => exact lookAt_endpoint ..

theorem Kept.supersedes_eq (h : Kept lib inp k seen w unseen spawned v) : v.supersedes =
    if inp.now < w.notBefore then w.supersedes else (lookAt lib inp k w).member.supersedes := by
  cases h with
  | later h => rw [if_pos h]
  | keep hd _ hk => rw [if_neg (not_lt.mpr hd), hk]
  | recheck hd => rw [if_neg (not_lt.mpr hd)]

theorem Kept.chain_subset (h : Kept lib inp k seen w unseen spawned v) {id : SocketId}
    (hid : id ∈ repairChain v) : id ∈ repairChain w := by
  rw [mem_repairChain, h.id_eq, h.supersedes_eq] at hid
  rw [mem_repairChain]
  refine hid.imp_left fun hid => ?_
  split_ifs at hid
  · exact hid
  · exact mem_lookAt_supersedes hid

theorem Kept.not_gone (h : Kept lib inp k seen w unseen spawned v) (hd : w.notBefore ≤ inp.now) :
    (lookAt lib inp k w).verdict ≠ .gone := by
  have hdrop (hn : (lookAt lib inp k w).next ≠ .drop) :
      (lookAt lib inp k w).verdict ≠ .gone := fun hg => hn (lookAt_drop.mpr (.inl hg))
  cases h with
  | later h => exact absurd hd (not_le.mpr h)
  | keep _ hn => exact hdrop (by rcases hn with hn | ⟨hn, -⟩ <;> simp [hn])
  | recheck _ hn => exact hdrop (by simp [hn])

theorem Replaces.not_kept (h : Replaces lib inp k seen w unseen spawned v) {v' : WatchedMember} :
    ¬Kept lib inp k seen w unseen spawned v' := by
  have key (hd : w.notBefore ≤ inp.now) (hn : (lookAt lib inp k w).next = .repair)
      (hp : planAt lib inp k seen w unseen spawned ≠ .wait) :
      ¬Kept lib inp k seen w unseen spawned v' := by
    rintro (h | ⟨-, h | ⟨-, h⟩, -⟩ | ⟨-, h⟩)
    · exact absurd hd (not_le.mpr h)
    · simp [hn] at h
    · exact hp h
    · simp [hn] at h
  cases h with
  | closed hd hn hp => exact key hd hn (by simp [hp])
  | overlaps hd hn hp => exact key hd hn (by simp [hp])

end Origin

/-- Where the members of the lists a turn leaves come from. -/
theorem Exit.origins (h : Exit lib inp k seen w unseen spawned seen' unseen' spawned' events) :
    (∀ v ∈ seen', (∃ u ∈ seen, Passed lib inp k seen w unseen spawned u v) ∨
      Kept lib inp k seen w unseen spawned v) ∧
    (∀ v ∈ unseen', ∃ u ∈ unseen, Passed lib inp k seen w unseen spawned u v) ∧
    (∀ v ∈ spawned', (∃ u ∈ spawned, Passed lib inp k seen w unseen spawned u v) ∨
      Replaces lib inp k seen w unseen spawned v) := by
  have hsame (xs : List WatchedMember) (v : WatchedMember) (hv : v ∈ xs) :
      ∃ u ∈ xs, Passed lib inp k seen w unseen spawned u v := ⟨v, hv, .same⟩
  have hrest (v : WatchedMember) (hv : v ∈ lastToFront unseen) :
      ∃ u ∈ unseen, Passed lib inp k seen w unseen spawned u v :=
    hsame _ v ((lastToFront_perm unseen).mem_iff.mp hv)
  have hkept (v : WatchedMember) (hk : Kept lib inp k seen w unseen spawned v) (x : WatchedMember)
      (hx : x ∈ seen ++ [v]) : (∃ u ∈ seen, Passed lib inp k seen w unseen spawned u x) ∨
        Kept lib inp k seen w unseen spawned x := by
    rcases List.mem_append.mp hx with hx | hx
    · exact .inl (hsame _ x hx)
    · exact .inr (List.mem_singleton.mp hx ▸ hk)
  have hnew (v : WatchedMember) (hk : Replaces lib inp k seen w unseen spawned v)
      (x : WatchedMember) (hx : x ∈ spawned ++ [v]) :
      (∃ u ∈ spawned, Passed lib inp k seen w unseen spawned u x) ∨
        Replaces lib inp k seen w unseen spawned x := by
    rcases List.mem_append.mp hx with hx | hx
    · exact .inl (hsame _ x hx)
    · exact .inr (List.mem_singleton.mp hx ▸ hk)
  cases h with
  | later h => exact ⟨hkept w (.later h), hsame _, fun v hv => .inl (hsame _ v hv)⟩
  | keep hd hn hk => exact ⟨hkept _ (.keep hd hn hk), hsame _, fun v hv => .inl (hsame _ v hv)⟩
  | recheck hd hn => exact ⟨hkept _ (.recheck hd hn), hsame _, fun v hv => .inl (hsame _ v hv)⟩
  | drop | abandon | close =>
    exact ⟨fun v hv => .inl (hsame _ v hv), hrest, fun v hv => .inl (hsame _ v hv)⟩
  | closeSpawn hd hn hp hc =>
    exact ⟨fun v hv => .inl (hsame _ v hv), hrest, hnew _ (.closed hd hn hp hc)⟩
  | overlap hd hn hp hc =>
    exact ⟨fun v hv => .inl (hsame _ v hv), hrest, hnew _ (.overlaps hd hn hp hc)⟩
  | @hand other _ _ _ hd hn hp hh hs hr =>
    obtain ⟨hseen, hunseen, hspawned⟩ := hh.split
      (by simpa using congrArg List.length hs) (by simpa using congrArg List.length hr)
    have hpass {xs ys : List WatchedMember} (h : List.Forall₂ (Handed other (repairChain w)) xs ys)
        (v : WatchedMember) (hv : v ∈ ys) :
        ∃ u ∈ xs, Passed lib inp k seen w unseen spawned u v := by
      obtain ⟨u, hu, rfl | ⟨rfl, rfl⟩⟩ := (exists_of_forall₂ h).1 v hv
      · exact ⟨v, hu, .same⟩
      · exact ⟨u, hu, .handed hd hn hp⟩
    refine ⟨fun v hv => .inl (hpass hseen v hv), fun v hv => ?_, fun v hv => .inl (hpass hspawned v hv)⟩
    obtain ⟨u, hu, hp⟩ := hpass hunseen v hv
    exact ⟨u, (lastToFront_perm unseen).mem_iff.mp hu, hp⟩

/-- A replacement in the list a turn leaves that was not there before was spawned by it. -/
theorem Exit.mem_spawned (h : Exit lib inp k seen w unseen spawned seen' unseen' spawned' events)
    {v : WatchedMember} (hv : v ∈ spawned') :
    (∃ u ∈ spawned, Passed lib inp k seen w unseen spawned u v) ∨
      Replaces lib inp k seen w unseen spawned v ∧ .spawn k v.id w.endpoint ∈ events := by
  rcases h.origins.2.2 v hv with hu | hrep
  · exact .inl hu
  cases h with
  | closeSpawn hd hn hp hc =>
    rcases List.mem_append.mp hv with hv | hv
    · exact .inl ⟨v, hv, .same⟩
    · rw [List.mem_singleton.mp hv]
      exact .inr ⟨.closed hd hn hp hc, by simp [replacement]⟩
  | overlap hd hn hp hc =>
    rcases List.mem_append.mp hv with hv | hv
    · exact .inl ⟨v, hv, .same⟩
    · rw [List.mem_singleton.mp hv]
      exact .inr ⟨.overlaps hd hn hp hc, by simp [replacement]⟩
  | hand _ _ hp => cases hrep with | closed _ _ h | overlaps _ _ h => simp [hp] at h
  | _ => exact .inl ⟨v, hv, .same⟩

theorem Exit.spawned_stay (h : Exit lib inp k seen w unseen spawned seen' unseen' spawned' events)
    {u : WatchedMember} (hu : u ∈ spawned) :
    ∃ v ∈ spawned', Passed lib inp k seen w unseen spawned u v := by
  cases h with
  | @hand other _ _ _ hd hn hp hh hs hr =>
    obtain ⟨-, -, hspawned⟩ := hh.split
      (by simpa using congrArg List.length hs) (by simpa using congrArg List.length hr)
    obtain ⟨v, hv, rfl | ⟨rfl, rfl⟩⟩ := (exists_of_forall₂ hspawned).2 u hu
    · exact ⟨v, hv, .same⟩
    · exact ⟨_, hv, .handed hd hn hp⟩
  | closeSpawn | overlap => exact ⟨u, List.mem_append_left _ hu, .same⟩
  | _ => exact ⟨u, hu, .same⟩

theorem Exit.handed (h : Exit lib inp k seen w unseen spawned seen' unseen' spawned' events)
    {other : SocketId} (hd : w.notBefore ≤ inp.now) (hn : (lookAt lib inp k w).next = .repair)
    (hp : planAt lib inp k seen w unseen spawned = .handToSibling other) :
    ∃ e ∈ seen' ++ unseen' ++ spawned', e.id = other ∧
      ∀ id ∈ repairChain w, id ∈ e.supersedes := by
  cases h with
  | later h => exact absurd hd (not_le.mpr h)
  | keep _ h => rcases h with h | ⟨-, h⟩ <;> simp_all
  | recheck _ h | drop _ h | abandon _ h => simp [hn] at h
  | close _ _ h _ hh => exact absurd (h.symm.trans hp) (hh other)
  | closeSpawn _ _ h | overlap _ _ h => simp [hp] at h
  | hand _ _ h hh =>
    obtain rfl : _ = other := by simpa using h.symm.trans hp
    obtain ⟨a, e, b, -, he, hab⟩ := hh
    exact ⟨{ e with supersedes := e.supersedes ++ repairChain w }, by rw [hab]; simp, he,
      fun id hid => List.mem_append_right _ hid⟩

theorem mem_closeMembers {ids : List SocketId} {k' : ℕ} {id : SocketId} :
    .close k' id ∈ closeMembers k ids ↔ k' = k ∧ id ∈ ids := by
  simp only [closeMembers, List.mem_map, MemberEvent.close.injEq]
  exact ⟨by rintro ⟨i, hi, rfl, rfl⟩; exact ⟨rfl, hi⟩, by rintro ⟨rfl, hi⟩; exact ⟨id, hi, rfl, rfl⟩⟩

/-- What a turn that replaces its member closes: the chain, unless that is handed over
or to overlap a replacement. -/
theorem Exit.repairs (h : Exit lib inp k seen w unseen spawned seen' unseen' spawned' events)
    {k' : ℕ} {id : SocketId} {chain : List SocketId} {plan : RepairPlan}
    (hr : .repair k' id chain plan ∈ events) :
    k' = k ∧ id = w.id ∧ (lookAt lib inp k w).next = .repair ∧
      planAt lib inp k seen w unseen spawned = plan ∧
      (∀ i id, .close i id ∈ events → i = k ∧ id ∈ repairChain w) ∧
      ((plan = .spawnThenClose ∧ ∃ i new ep, .spawn i new ep ∈ events) ∨
        (∃ other, plan = .handToSibling other) → ∀ i id, .close i id ∉ events) := by
  have hlook (e : MemberEvent) (he : e ∈ (lookAt lib inp k w).events k inp.now) :
      ∀ k' id chain plan, e ≠ .repair k' id chain plan := by
    rintro k' id chain plan rfl
    simp [Look.events, closeMembers] at he
  have hclose (ids : List SocketId) : .repair k' id chain plan ∉ closeMembers k ids := by
    simp [closeMembers]
  have hclosed (hn : (lookAt lib inp k w).next = .repair) (p : RepairPlan) (i : ℕ) (id : SocketId) :
      .close i id ∉ repairEvents lib inp k w p := by
    simp [repairEvents, Look.events, (lookAt_lingered_of_repair hn).1, closeMembers]
  have hplan {p : RepairPlan} (h : .repair k' id chain plan ∈ repairEvents lib inp k w p) :
      k' = k ∧ id = w.id ∧ p = plan := by
    rcases List.mem_append.mp h with h | h
    · exact absurd rfl (hlook _ h k' id chain plan)
    · simp only [List.mem_singleton, MemberEvent.repair.injEq] at h
      exact ⟨h.1, h.2.1, h.2.2.2.symm⟩
  cases h with
  | later => cases hr
  | keep | recheck => exact absurd rfl (hlook _ hr k' id chain plan)
  | drop | abandon =>
    rcases List.mem_append.mp hr with hr | hr
    · exact absurd rfl (hlook _ hr k' id chain plan)
    · exact absurd hr (hclose _)
  | close hd hn hp hw hh =>
    obtain ⟨rfl, rfl, rfl⟩ := hplan ((List.mem_append.mp hr).resolve_right (hclose _))
    refine ⟨rfl, rfl, hn, hp, fun i id hc => ?_, fun hs => ?_⟩
    · exact mem_closeMembers.mp ((List.mem_append.mp hc).resolve_left (hclosed hn _ i id))
    · rcases hs with ⟨-, i, new, ep, hs⟩ | ⟨other, ho⟩
      · simp [repairEvents, Look.events, closeMembers] at hs
      · exact absurd ho (hh other)
  | hand hd hn hp =>
    obtain ⟨rfl, rfl, rfl⟩ := hplan hr
    exact ⟨rfl, rfl, hn, hp, fun i id hc => absurd hc (hclosed hn _ i id), fun _ => hclosed hn _⟩
  | closeSpawn hd hn hp =>
    have hr : .repair k' id chain plan ∈ repairEvents lib inp k w .closeThenSpawn := by
      simpa [closeMembers] using hr
    obtain ⟨rfl, rfl, rfl⟩ := hplan hr
    refine ⟨rfl, rfl, hn, hp, fun i id hc => ?_, by simp⟩
    simp only [List.mem_append, hclosed hn, false_or, List.mem_singleton, reduceCtorEq, or_false] at hc
    exact mem_closeMembers.mp hc
  | overlap hd hn hp =>
    have hr : .repair k' id chain plan ∈ repairEvents lib inp k w .spawnThenClose := by
      simpa using hr
    obtain ⟨rfl, rfl, rfl⟩ := hplan hr
    have hnone (i : ℕ) (id new : SocketId) :
        .close i id ∉ repairEvents lib inp k' w .spawnThenClose ++ [.spawn k' new w.endpoint] := by
      simp [hclosed hn]
    exact ⟨rfl, rfl, hn, hp, fun i id hc => absurd hc (hnone i id _), fun _ i id => hnone i id _⟩

/-- The members a turn leaves: those it looked past, the one it looked at, and a
replacement. -/
theorem Exit.mem_cases (h : Exit lib inp k seen w unseen spawned seen' unseen' spawned' events)
    {v : WatchedMember} (hv : v ∈ seen' ++ unseen' ++ spawned') :
    (∃ u ∈ seen ++ unseen ++ spawned, Passed lib inp k seen w unseen spawned u v) ∨
      Kept lib inp k seen w unseen spawned v ∨ Replaces lib inp k seen w unseen spawned v := by
  obtain ⟨hseen, hunseen, hspawned⟩ := h.origins
  simp only [List.mem_append] at hv ⊢
  rcases hv with (hv | hv) | hv
  · rcases hseen v hv with ⟨u, hu, hp⟩ | hk
    · exact .inl ⟨u, .inl (.inl hu), hp⟩
    · exact .inr (.inl hk)
  · obtain ⟨u, hu, hp⟩ := hunseen v hv
    exact .inl ⟨u, .inl (.inr hu), hp⟩
  · rcases hspawned v hv with ⟨u, hu, hp⟩ | hr
    · exact .inl ⟨u, .inr hu, hp⟩
    · exact .inr (.inr hr)

end Exits

section Loop

variable {lib : Libsrt} {inp : CheckInput}

/-- A turn permutes the members not yet looked at, and loses none. -/
theorem Exit.unseen_keys {k : ℕ} {seen : List WatchedMember} {w : WatchedMember}
    {unseen spawned seen' unseen' spawned' : List WatchedMember} {events : List MemberEvent}
    (h : Exit lib inp k seen w unseen spawned seen' unseen' spawned' events) :
    (unseen'.map WatchedMember.key).Perm (unseen.map WatchedMember.key) := by
  have hl := (lastToFront_perm unseen).map WatchedMember.key
  cases h with
  | hand _ _ _ _ _ hr => exact (List.Perm.of_eq hr).trans hl
  | later | keep | recheck => exact .refl _
  | _ => exact hl

theorem Exit.unseen_length {k : ℕ} {seen : List WatchedMember} {w : WatchedMember}
    {unseen spawned seen' unseen' spawned' : List WatchedMember} {events : List MemberEvent}
    (h : Exit lib inp k seen w unseen spawned seen' unseen' spawned' events) :
    unseen'.length = unseen.length := by
  simpa using h.unseen_keys.length_eq

/-- What every turn preserves holds when the loop has looked at the last member;
the loop ends within as many turns as there are members. -/
theorem checkLoop_induction
    {P : List WatchedMember → List WatchedMember → List WatchedMember → ℕ → List MemberEvent → Prop}
    (hturn : ∀ seen w unseen spawned k trace seen' unseen' spawned' events,
      P seen (w :: unseen) spawned k trace →
      Exit lib inp k seen w unseen spawned seen' unseen' spawned' events →
      P seen' unseen' spawned' (k + 1) (trace ++ events))
    (n : ℕ) (seen unseen spawned : List WatchedMember) (k : ℕ) (trace : List MemberEvent)
    (hn : unseen.length = n) (h : P seen unseen spawned k trace) :
    ∃ watched spawned' k' trace',
      checkLoop lib inp n ⟨seen ++ unseen, seen.length, spawned, k, trace⟩ =
        ⟨watched, watched.length, spawned', k', trace'⟩ ∧
      P watched [] spawned' k' trace' := by
  induction n generalizing seen unseen spawned k trace with
  | zero =>
    obtain rfl := List.length_eq_zero_iff.mp hn
    exact ⟨seen, spawned, k, trace, by simp [checkLoop], h⟩
  | succ n ih =>
    cases unseen with
    | nil => simp at hn
    | cons w unseen =>
      obtain ⟨seen', unseen', spawned', events, he, ht⟩ :=
        checkTurn_exit lib inp k seen w unseen spawned trace
      have hlen : unseen'.length = n := he.unseen_length.trans (Nat.succ.inj hn)
      have hlt : seen.length < (seen ++ w :: unseen).length := by simp
      simp only [checkLoop, hlt, if_true, ht]
      exact ih _ _ _ _ _ hlen (hturn _ _ _ _ _ _ _ _ _ _ h he)

/-- The loop takes one step for each member it began with. -/
theorem checkLoop_step {n : ℕ} {members : List WatchedMember} (hn : members.length = n) (k : ℕ)
    (trace : List MemberEvent) :
    (checkLoop lib inp n ⟨members, 0, [], k, trace⟩).step = k + n := by
  have hturn (seen : List WatchedMember) (w : WatchedMember) (unseen spawned : List WatchedMember)
      (k' : ℕ) (tr : List MemberEvent) (seen' unseen' spawned' : List WatchedMember)
      (events : List MemberEvent) (hk : k' + (w :: unseen).length = k + n)
      (he : Exit lib inp k' seen w unseen spawned seen' unseen' spawned' events) :
      k' + 1 + unseen'.length = k + n := by
    have hlen := he.unseen_length
    simp only [List.length_cons] at hk
    omega
  obtain ⟨watched, spawned, k', tr, hc, hk⟩ := checkLoop_induction
    (P := fun _ unseen _ k' _ => k' + unseen.length = k + n) hturn n [] members [] k trace hn (by rw [hn])
  simp only [List.nil_append, List.length_nil] at hc
  rw [hc]
  exact hk

end Loop

end SrtBridge
