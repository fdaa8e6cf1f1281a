import SrtBridge.General.Utf8
import SrtBridge.Protocol.StreamId
import SrtBridge.Bridge.Listeners
import SrtBridge.Bridge.Settings

/-! The stream ID on its way. The caller's is set as an option; what libsrt carries of it is read twice on
the other side, by the listener's access control as a C string and by the application out of a buffer. -/

namespace SrtBridge

open General

/-- The stream ID libsrt takes with an option call. -/
def takenStreamId : OptCall × Bool → Option Bytes
  | ((.streamid, .str s), true) => some (utf8 s)
  | _ => none

/-- The stream ID it took last, or none. -/
def lastTakenStreamId (calls : List (OptCall × Bool)) : Bytes :=
  (calls.filterMap takenStreamId).getLast?.getD []

/-- The stream ID in `listen_callback_trampoline`: a C string, unless the pointer is null. -/
def callbackStreamId (streamid : Option Bytes) : Option Text :=
  streamid.map fun bs => fromUtf8Lossy (bs.takeWhile (· ≠ 0))

/-- `get_stream_id`: `len` bytes of the buffer, or nothing if `srt_getsockflag` fails. -/
def getStreamId (ret len : ℤ) (buf : Bytes) : Text :=
  if ret < 0 ∨ len ≤ 0 then [] else (fromUtf8Lossy (buf.take len.toNat)).rdropWhile (· = '\x00')

section Views

variable {bs : Bytes} {s blanks : Text}

theorem rdropWhile_append_nul (hs : '\x00' ∉ s) (hb : ∀ c ∈ blanks, c = '\x00') :
    (s ++ blanks).rdropWhile (· = '\x00') = s := by
  induction blanks using List.reverseRecOn with
  | nil =>
    rw [List.append_nil, List.rdropWhile_eq_self_iff]
    intro hne hlast
    have hnul := of_decide_eq_true hlast
    exact hs (hnul ▸ List.getLast_mem hne)
  | append_singleton blanks c ih =>
    obtain ⟨hblanks, hc⟩ := List.forall_mem_append.mp hb
    rw [← List.append_assoc, List.rdropWhile_concat_pos _ _ _ (by simpa using hc)]
    exact ih hblanks

/-- A C string ends at its first NUL, wherever the buffer ends. -/
theorem takeWhile_nul (bs junk : Bytes) :
    (bs ++ 0 :: junk).takeWhile (· ≠ 0) = bs.takeWhile (· ≠ 0) := by
  induction bs with
  | nil => rfl
  | cons b bs ih =>
    rw [List.cons_append, List.takeWhile_cons, List.takeWhile_cons, ih]

theorem not_mem_takeWhile (bs : Bytes) : '\x00' ∉ fromUtf8Lossy (bs.takeWhile (· ≠ 0)) := by
  rw [nul_mem_iff]
  intro h
  simpa using List.mem_takeWhile_imp h

theorem fromUtf8Lossy_takeWhile (bs : Bytes) :
    fromUtf8Lossy bs = fromUtf8Lossy (bs.takeWhile (· ≠ 0)) ++ fromUtf8Lossy (bs.dropWhile (· ≠ 0)) := by
  have hsplit : bs.takeWhile (· ≠ 0) ++ bs.dropWhile (· ≠ 0) = bs := List.takeWhile_append_dropWhile
  cases hd : bs.dropWhile (· ≠ 0) with
  | nil =>
    rw [hd, List.append_nil] at hsplit
    rw [hsplit]
    exact (List.append_nil _).symm
  | cons b rest =>
    obtain rfl : b = 0 := by
      have hne : bs.dropWhile (· ≠ 0) ≠ [] := hd ▸ List.cons_ne_nil b rest
      have hhead := List.head_dropWhile_not _ hne
      simp only [hd, List.head_cons] at hhead
      simpa using hhead
    have hfirst : fromUtf8Lossy (0 :: rest) = '\x00' :: fromUtf8Lossy rest := fromUtf8Lossy_nul [] rest
    rw [hfirst, ← fromUtf8Lossy_nul, ← hd, hsplit]

theorem getStreamId_eq (bs rest : Bytes) :
    getStreamId 0 bs.length (bs ++ rest) = (fromUtf8Lossy bs).rdropWhile (· = '\x00') := by
  unfold getStreamId
  split_ifs with h
  · have hnil : bs = [] := by
      rw [← List.length_eq_zero_iff]
      omega
    rw [hnil]
    rfl
  · rw [Int.toNat_natCast, List.take_left]

/-- The access control and the application read the same stream ID exactly if nothing but NUL follows
the first NUL of the bytes; whatever those are, and whatever the memory behind them holds. -/
theorem stream_ids_agree (hsVersion : ℤ) (peeraddr : Option SocketAddr) (bs junk rest : Bytes) :
    (handshakeInfo hsVersion peeraddr (callbackStreamId (some (bs ++ 0 :: junk)))).streamId =
        getStreamId 0 bs.length (bs ++ rest) ↔ ∀ b ∈ bs.dropWhile (· ≠ 0), b = 0 := by
  have hgate : (handshakeInfo hsVersion peeraddr (callbackStreamId (some (bs ++ 0 :: junk)))).streamId =
      fromUtf8Lossy (bs.takeWhile (· ≠ 0)) := congrArg fromUtf8Lossy (takeWhile_nul bs junk)
  rw [hgate, getStreamId_eq, ← forall_nul_iff]
  constructor
  · intro h
    have hsplit := List.rdropWhile_append_rtakeWhile (p := (· = '\x00')) (l := fromUtf8Lossy bs)
    rw [← h] at hsplit
    have htail := List.append_cancel_left (hsplit.trans (fromUtf8Lossy_takeWhile bs))
    intro c hc
    rw [← htail] at hc
    simpa using List.mem_rtakeWhile_imp hc
  · intro h
    rw [fromUtf8Lossy_takeWhile bs, rdropWhile_append_nul (not_mem_takeWhile bs) h]

/-- A caller that hides a part of its stream ID behind a NUL. -/
theorem stream_ids_agree_hidden :
    (handshakeInfo 5 none (callbackStreamId (some ([97, 0, 98] ++ 0 :: [])))).streamId ≠
      getStreamId 0 (List.length [97, 0, 98]) ([97, 0, 98] ++ []) :=
  mt (stream_ids_agree 5 none [97, 0, 98] [] []).mp (by decide)

end Views

section Arrives

variable (lib : Libsrt) (k : ℕ) (sock : SocketId) (config : SrtConfig)

theorem callsFor_streamId : callsFor .streamid (applyConfig config) =
    callsIf (config.streamId ≠ []) [(.streamid, .str config.streamId)] := by
  simp only [applyConfig, transportCalls, encryptionCalls, bandwidthCalls, pathCalls, deliveryCalls,
    callsFor_append, callsFor_callsIf, callsFor_cons, callsFor_nil, callsIf_nil, reduceCtorEq, if_false,
    if_true, List.append_nil, List.nil_append]

/-- The stream ID of the configuration, if libsrt is given it and takes it. -/
def acceptedStreamId : Text :=
  if '\x00' ∉ config.streamId ∧ lib.setsockflag k 0 sock .streamid (.str config.streamId) = true then
    config.streamId
  else []

/-- Of all the options that are set, the stream ID libsrt takes depends on its own only. -/
theorem lastTakenStreamId_applyConfig : lastTakenStreamId (setOpts lib k sock (applyConfig config)) =
    utf8 (acceptedStreamId lib k sock config) := by
  have hown (calls : List OptCall) : (setOpts lib k sock calls).filterMap takenStreamId =
      (setOpts lib k sock (callsFor .streamid calls)).filterMap takenStreamId := by
    rw [setOpts, setOpts, callsFor, List.filterMap_filterMap, List.filterMap_filterMap, List.filterMap_filter]
    refine List.filterMap_congr fun call _ => ?_
    by_cases hopt : call.1 = .streamid
    · simp [hopt]
    · have hnone (ok : Bool) : takenStreamId (call, ok) = none := by
        obtain ⟨opt, v⟩ := call
        cases opt <;> first | rfl | exact absurd rfl hopt
      simp only [decide_eq_false hopt, setOpt_eq, Bool.false_eq_true, if_false]
      split_ifs
      · exact hnone _
      · rfl
  rw [lastTakenStreamId, hown, callsFor_streamId]
  by_cases hempty : config.streamId = []
  · simp [callsIf, hempty, setOpts, acceptedStreamId, utf8]
  · by_cases hnul : '\x00' ∈ config.streamId
    · simp [callsIf, hempty, setOpts, setOpt, hnul, acceptedStreamId, utf8]
    · cases hset : lib.setsockflag k 0 sock .streamid (.str config.streamId) with
      | true => simp [callsIf, hempty, setOpts, setOpt, hnul, hset, acceptedStreamId, takenStreamId]
      | false => simp [callsIf, hempty, setOpts, setOpt, hnul, hset, acceptedStreamId, takenStreamId, utf8]

/-- A text without NUL is read as it is, by the access control and by the application. -/
theorem reads_text {s : Text} {carried : Bytes} (hcarried : carried = utf8 s) (hs : '\x00' ∉ s)
    (hsVersion : ℤ) (peeraddr : Option SocketAddr) (junk : Bytes) (m n : ℕ) :
    (handshakeInfo hsVersion peeraddr (callbackStreamId (some (carried ++ 0 :: junk)))).streamId = s ∧
      getStreamId 0 (carried.length + m) (carried ++ List.replicate (m + n) 0) = s := by
  have hread : fromUtf8Lossy carried = s := by
    have hutf8 := fromUtf8Lossy_utf8 s []
    rw [List.append_nil, ← hcarried] at hutf8
    exact hutf8.trans (List.append_nil s)
  have hzero : 0 ∉ carried := by
    rw [← nul_mem_iff, hread]
    exact hs
  constructor
  · have hwhole : carried.takeWhile (· ≠ 0) = carried := by
      rw [List.takeWhile_eq_self_iff]
      exact fun b hb => decide_eq_true fun h => hzero (h ▸ hb)
    show fromUtf8Lossy ((carried ++ 0 :: junk).takeWhile (· ≠ 0)) = s
    rw [takeWhile_nul, hwhole, hread]
  · have hpad : carried ++ List.replicate (m + n) 0 =
        (carried ++ List.replicate m 0) ++ List.replicate n 0 := by
      rw [List.append_assoc, List.replicate_append_replicate]
    have hlen : (carried.length : ℤ) + m = ((carried ++ List.replicate m (0 : UInt8)).length : ℕ) := by
      simp
    rw [hpad, hlen, getStreamId_eq, hcarried, fromUtf8Lossy_utf8]
    refine rdropWhile_append_nul hs ((forall_nul_iff _).mpr fun b hb => ?_)
    exact List.eq_of_mem_replicate hb

theorem nul_not_mem_acceptedStreamId : '\x00' ∉ acceptedStreamId lib k sock config := by
  unfold acceptedStreamId
  split_ifs with h
  · exact h.1
  · simp

/-- A caller's stream ID arrives. If libsrt hands on the bytes it took last, though perhaps padded with NUL,
then the access control and the application both read the text the caller set, or both read none, where
it holds a NUL or libsrt refused it; and where it was formatted from fields without separators, both find
these. -/
theorem stream_id_arrives {carried : Bytes}
    (hcarried : carried = lastTakenStreamId (setOpts lib k sock (applyConfig config))) (hsVersion : ℤ)
    (peeraddr : Option SocketAddr) (junk : Bytes) (m n : ℕ) :
    let gate := (handshakeInfo hsVersion peeraddr (callbackStreamId (some (carried ++ 0 :: junk)))).streamId
    gate = acceptedStreamId lib k sock config ∧
      getStreamId 0 (carried.length + m) (carried ++ List.replicate (m + n) 0) = gate ∧
        ∀ info : StreamIdInfo, info.Formattable → gate = info.toStreamId →
          StreamIdInfo.parse gate = { info with raw := gate } := by
  have hread := reads_text (hcarried.trans (lastTakenStreamId_applyConfig lib k sock config))
    (nul_not_mem_acceptedStreamId lib k sock config) hsVersion peeraddr junk m n
  refine ⟨hread.1, hread.2.trans hread.1.symm, fun info hinfo htext => ?_⟩
  rw [htext, hinfo.roundTrip]

/-- A user and a resource, set by the caller and found by the access control. -/
theorem stream_id_arrives_user :
    let info : StreamIdInfo := { resource := some "live".toList, userName := some "admin".toList }
    let gate := (handshakeInfo 5 none (callbackStreamId (some (utf8 info.toStreamId ++ 0 :: [])))).streamId
    StreamIdInfo.parse gate = { info with raw := gate } := by
  intro info gate
  have hcarried : utf8 info.toStreamId = lastTakenStreamId (setOpts (.reading fun _ => .connected) 0 7
      (applyConfig { streamId := info.toStreamId })) := by decide
  have harrives := stream_id_arrives (.reading fun _ => .connected) 0 7 { streamId := info.toStreamId }
    hcarried 5 none [] 0 0
  have hinfo : info.Formattable := ⟨by decide, by decide⟩
  exact harrives.2.2 info hinfo (harrives.1.trans (by decide))

end Arrives

end SrtBridge
