import SrtBridge.Libsrt.Calls

/-! One group member the bridge spawned and is still watching: what one look at
it finds, and the time half of the decision that follows. -/

namespace SrtBridge

def strandedCheck : Duration := fromMillis 100
def strandedMemberGrace : Duration := fromMillis 500
def maxStrandedRepairs : ℕ := 3
def handshakeTtlSlack : Duration := fromSecs 1
def defaultConnectTimeout : Duration := fromSecs 3
def maskedMemberRecheck : Duration := fromSecs 1
def supersededLingerSlack : Duration := fromSecs 1

/-- A member's own connect timeout, or libsrt's default when it cannot be read. -/
def connectTimeoutOf (lib : Libsrt) (k : ℕ) (member : SocketId) : Duration :=
  match lib.getsockflag k member .conntimeo with
  | none => defaultConnectTimeout
  | some ms => if ms ≤ 0 then defaultConnectTimeout else fromMillis ms.toNat

/-- How long the members a replacement superseded stay once it is up: the longer
of the two latencies on it, plus the slack. -/
def supersededLinger (lib : Libsrt) (k : ℕ) (member : SocketId) : Duration :=
  let latency (opt : SockOpt) : ℕ := ((lib.getsockflag k member opt).getD 0).toNat
  fromMillis (max (latency .rcvlatency) (latency .peerlatency)) + supersededLingerSlack

structure WatchedMember where
  id : SocketId
  endpoint : GroupEndpoint
  /-- Its socket's own state, read at the start of each check; `init` for a
  member spawned in the current check. -/
  live : SocketStatus
  /-- Not looked at before this. -/
  notBefore : Instant
  /-- libsrt has connected or failed a member by now. -/
  resolveBy : Instant
  /-- First of the current run of stranded readings. -/
  strandedSince : Option Instant
  repairs : ℕ
  /-- Stranded members this one replaces that are still in the group. -/
  supersedes : List SocketId
  /-- When `supersedes` is closed, once this member is up. -/
  closeSupersededAt : Option Instant
  forced : Bool
  waiting : Bool
  deriving DecidableEq

namespace WatchedMember

def new (id : SocketId) (endpoint : GroupEndpoint) (resolveBy now : Instant) : WatchedMember where
  id := id
  endpoint := endpoint
  live := .init
  notBefore := now
  resolveBy := resolveBy
  strandedSince := none
  repairs := 0
  supersedes := []
  closeSupersededAt := none
  forced := false
  waiting := false

def spawned (lib : Libsrt) (k : ℕ) (id : SocketId) (endpoint : GroupEndpoint) (now : Instant) :
    WatchedMember :=
  new id endpoint (now + connectTimeoutOf lib k id + handshakeTtlSlack) now

section Spawned

variable (lib : Libsrt) (k : ℕ) (id : SocketId) (ep : GroupEndpoint) (now : Instant)

@[simp] theorem spawned_id : (spawned lib k id ep now).id = id := rfl

@[simp] theorem spawned_endpoint : (spawned lib k id ep now).endpoint = ep := rfl

@[simp] theorem spawned_supersedes : (spawned lib k id ep now).supersedes = [] := rfl

@[simp] theorem spawned_strandedSince : (spawned lib k id ep now).strandedSince = none := rfl

@[simp] theorem spawned_notBefore : (spawned lib k id ep now).notBefore = now := rfl

@[simp] theorem spawned_forced : (spawned lib k id ep now).forced = false := rfl

@[simp] theorem spawned_repairs : (spawned lib k id ep now).repairs = 0 := rfl

@[simp] theorem spawned_live : (spawned lib k id ep now).live = .init := rfl

end Spawned

end WatchedMember

inductive Verdict where
  | gone | brokenLive | stranded | confirmed | masked | handshaking
  deriving DecidableEq, Repr

/-- `live` is the socket's own state, read first; `row` the member and socket
state of its row in the group listing, read after. -/
def classifyWatched (live : SocketStatus) (row : Option (MemberStatus × SocketStatus))
    (forced backup : Bool) : Verdict :=
  match row with
  | none => .gone
  | some (member, listed) =>
    if member = .broken then
      if live = .connected then .brokenLive else .gone
    else if live = .connected ∧ (forced ∨ member = .pending ∨ listed = .connecting) then .stranded
    else if listed = .connected then
      match member with
      | .idle => .confirmed
      | .running => if backup then .masked else .confirmed
      | _ => .handshaking
    else .handshaking

section Classify

variable {live : SocketStatus} {row : Option (MemberStatus × SocketStatus)} {forced backup : Bool}

/-- Gone: not listed, or listed Broken on a socket that is not connected. -/
theorem classifyWatched_gone : classifyWatched live row forced backup = .gone ↔
    row = none ∨ (∃ st, row = some (.broken, st)) ∧ live ≠ .connected := by
  rcases row with _ | ⟨member, listed⟩
  · simp [classifyWatched]
  · cases member <;> simp only [classifyWatched] <;> split_ifs <;> simp_all

/-- A member listed Broken is gone, or broken on a live socket. -/
theorem classifyWatched_broken {st : SocketStatus} :
    classifyWatched live (some (.broken, st)) forced backup =
      if live = .connected then .brokenLive else .gone := by
  simp [classifyWatched]

theorem live_of_stranded (h : classifyWatched live row forced backup = .stranded ∨
    classifyWatched live row forced backup = .brokenLive) : live = .connected := by
  rcases row with _ | ⟨member, listed⟩
  · simp [classifyWatched] at h
  · cases member <;> simp only [classifyWatched] at h <;> split_ifs at h <;> simp_all

/-- A member read in its handshake is listed, and not Broken. -/
theorem row_of_handshaking (h : classifyWatched live row forced backup = .handshaking) :
    ∃ member st, row = some (member, st) ∧ member ≠ .broken := by
  rcases row with _ | ⟨member, listed⟩
  · simp [classifyWatched] at h
  · refine ⟨member, listed, rfl, ?_⟩
    rintro rfl
    rw [classifyWatched_broken] at h
    split_ifs at h

/-- A member read up is listed with a connected socket. -/
theorem row_of_up (h : classifyWatched live row forced backup = .confirmed ∨
    classifyWatched live row forced backup = .masked) :
    ∃ member, row = some (member, .connected) := by
  rcases row with _ | ⟨member, listed⟩
  · simp [classifyWatched] at h
  · refine ⟨member, ?_⟩
    cases member <;> simp only [classifyWatched] at h <;> split_ifs at h <;> simp_all

end Classify

inductive Step where
  | keep
  | recheck (t : Instant)
  | drop
  | abandon
  | repair
  deriving DecidableEq, Repr

/-- The time half of a look. The member comes back with its grace clock moved. -/
def nextStep (w : WatchedMember) (verdict : Verdict) (now : Instant) : WatchedMember × Step :=
  match verdict with
  | .gone => (w, .drop)
  | .stranded | .brokenLive =>
    let since := w.strandedSince.getD now
    ({ w with strandedSince := some since },
      if strandedMemberGrace ≤ now - since then .repair else .keep)
  | .confirmed =>
    ({ w with strandedSince := none }, if w.supersedes = [] then .drop else .keep)
  | .masked =>
    ({ w with strandedSince := none },
      if w.supersedes = [] then .recheck (now + maskedMemberRecheck) else .keep)
  | .handshaking =>
    ({ w with strandedSince := none },
      if now < w.resolveBy then .keep
      else if isTerminalStatus w.live then .abandon
      else .repair)

section NextStep

variable (w : WatchedMember) (verdict : Verdict) (now : Instant)

@[simp] theorem nextStep_id : (nextStep w verdict now).1.id = w.id := by
  cases verdict <;> rfl

@[simp] theorem nextStep_endpoint : (nextStep w verdict now).1.endpoint = w.endpoint := by
  cases verdict <;> rfl

@[simp] theorem nextStep_live : (nextStep w verdict now).1.live = w.live := by
  cases verdict <;> rfl

@[simp] theorem nextStep_notBefore : (nextStep w verdict now).1.notBefore = w.notBefore := by
  cases verdict <;> rfl

@[simp] theorem nextStep_resolveBy : (nextStep w verdict now).1.resolveBy = w.resolveBy := by
  cases verdict <;> rfl

@[simp] theorem nextStep_supersedes : (nextStep w verdict now).1.supersedes = w.supersedes := by
  cases verdict <;> rfl

@[simp] theorem nextStep_repairs : (nextStep w verdict now).1.repairs = w.repairs := by
  cases verdict <;> rfl

@[simp] theorem nextStep_forced : (nextStep w verdict now).1.forced = w.forced := by
  cases verdict <;> rfl

end NextStep

/-- A member is let go when it is gone, or up with nothing left to supersede. -/
theorem nextStep_drop {w : WatchedMember} {verdict : Verdict} {now : Instant} :
    (nextStep w verdict now).2 = .drop ↔
      verdict = .gone ∨ verdict = .confirmed ∧ w.supersedes = [] := by
  cases verdict <;> simp only [nextStep] <;> (try split_ifs) <;> simp_all

/-- A member is rechecked later only when its receive state hides its send state. -/
theorem nextStep_recheck {w : WatchedMember} {verdict : Verdict} {now t : Instant}
    (h : (nextStep w verdict now).2 = .recheck t) :
    verdict = .masked ∧ w.supersedes = [] ∧ t = now + maskedMemberRecheck := by
  cases verdict <;> simp only [nextStep] at h <;> (try split_ifs at h) <;> simp_all

/-- A member is abandoned only past its deadline, on a dead socket. -/
theorem nextStep_abandon {w : WatchedMember} {verdict : Verdict} {now : Instant}
    (h : (nextStep w verdict now).2 = .abandon) :
    verdict = .handshaking ∧ w.resolveBy ≤ now ∧ isTerminalStatus w.live = true := by
  cases verdict <;> simp only [nextStep] at h <;> (try split_ifs at h) <;> simp_all

/-- A member is repaired once stranded for the grace, or past its deadline on a
socket that is not dead. -/
theorem nextStep_repair {w : WatchedMember} {verdict : Verdict} {now : Instant}
    (h : (nextStep w verdict now).2 = .repair) :
    (verdict = .stranded ∨ verdict = .brokenLive) ∧
        strandedMemberGrace ≤ now - w.strandedSince.getD now ∨
      verdict = .handshaking ∧ w.resolveBy ≤ now ∧ isTerminalStatus w.live = false := by
  cases verdict <;> simp only [nextStep] at h <;> (try split_ifs at h) <;> simp_all

end SrtBridge
