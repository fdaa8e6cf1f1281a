import SrtBridge.General.Text
import SrtBridge.Protocol.Config

/-! Stream IDs: the structured `#!::key=value,...` form and the plain one, and what
becomes of the fields when a parsed Stream ID is formatted and parsed again. -/

namespace SrtBridge

open General

/-- `char::is_whitespace`: Unicode's `White_Space`. -/
def isWhitespace (c : Char) : Bool :=
  let n := c.toNat
  (9 ≤ n && n ≤ 13) || n = 0x20 || n = 0x85 || n = 0xA0 || n = 0x1680 || (0x2000 ≤ n && n ≤ 0x200A) ||
    n = 0x2028 || n = 0x2029 || n = 0x202F || n = 0x205F || n = 0x3000

structure StreamIdInfo where
  resource : Option Text := none
  mode : Option Text := none
  sessionId : Option Text := none
  contentType : Option Text := none
  userName : Option Text := none
  hostName : Option Text := none
  extra : List (Text × Text) := []
  raw : Text := []
  deriving DecidableEq

namespace StreamIdInfo

def marker : Text := "#!::".toList

/-- Take in one parameter; of a field named again, the last value counts. -/
def setParam (info : StreamIdInfo) (key value : Text) : StreamIdInfo :=
  if key = "r".toList then { info with resource := some value }
  else if key = "m".toList then { info with mode := some value }
  else if key = "s".toList then { info with sessionId := some value }
  else if key = "t".toList then { info with contentType := some value }
  else if key = "u".toList then { info with userName := some value }
  else if key = "h".toList then { info with hostName := some value }
  else { info with extra := info.extra ++ [(key, value)] }

/-- Take in one piece between commas; one without an equals sign is passed over. -/
def setPair (info : StreamIdInfo) (pair : Text) : StreamIdInfo :=
  let pair := trim isWhitespace pair
  if pair = [] then info
  else
    match splitOnce '=' pair with
    | some (key, value) => info.setParam key value
    | none => info

def parse (streamId : Text) : StreamIdInfo :=
  let info : StreamIdInfo := { raw := streamId }
  if streamId = [] then info
  else
    match streamId.dropPrefix? marker with
    | some params => (params.splitOn ',').foldl setPair info
    | none => { info with resource := some streamId }

def formatParam (p : Text × Text) : Text := p.1 ++ '=' :: p.2

def params (info : StreamIdInfo) : List (Text × Text) :=
  (info.resource.map ("r".toList, ·)).toList ++ (info.mode.map ("m".toList, ·)).toList ++
    (info.sessionId.map ("s".toList, ·)).toList ++ (info.contentType.map ("t".toList, ·)).toList ++
    (info.userName.map ("u".toList, ·)).toList ++ (info.hostName.map ("h".toList, ·)).toList ++ info.extra

def toStreamId (info : StreamIdInfo) : Text :=
  let parts := info.params.map formatParam
  if parts = [] then [] else marker ++ [','].intercalate parts

def fieldKeys : List Text :=
  ["r".toList, "m".toList, "s".toList, "t".toList, "u".toList, "h".toList]

/-- All fields but `raw` are the same. -/
structure SameFields (a b : StreamIdInfo) : Prop where
  resource : a.resource = b.resource
  mode : a.mode = b.mode
  sessionId : a.sessionId = b.sessionId
  contentType : a.contentType = b.contentType
  userName : a.userName = b.userName
  hostName : a.hostName = b.hostName
  extra : a.extra = b.extra

/-- The values a Stream ID gives its fields and its extra keys. -/
def values (info : StreamIdInfo) : List Text := info.params.map Prod.snd

/-- A value that the comma after it, and the trimming there, leave alone. -/
def ValueOk (v : Text) : Prop := ',' ∉ v ∧ Unpadded isWhitespace v

/-- A key that the separators, and the trimming before it, leave alone. -/
def KeyOk (k : Text) : Prop := ',' ∉ k ∧ '=' ∉ k ∧ Unindented isWhitespace k

instance (v : Text) : Decidable (ValueOk v) := by unfold ValueOk; infer_instance

instance (k : Text) : Decidable (KeyOk k) := by unfold KeyOk; infer_instance

/-- Nothing in the fields can be taken for a separator, a blank or another field. -/
structure Formattable (info : StreamIdInfo) : Prop where
  values : ∀ v ∈ info.values, ValueOk v
  keys : ∀ p ∈ info.extra, KeyOk p.1 ∧ p.1 ∉ fieldKeys

section Params

variable {info : StreamIdInfo} {p : Text × Text} {k v : Text}

theorem keyOk_of_mem_fieldKeys (h : k ∈ fieldKeys) : KeyOk k := by
  have hall : ∀ k ∈ fieldKeys, KeyOk k := by decide
  exact hall k h

/-- A formatted parameter is read as its key and value. -/
theorem setPair_formatParam (hk : KeyOk p.1) (hv : ValueOk p.2) :
    info.setPair (formatParam p) = info.setParam p.1 p.2 := by
  have hne : formatParam p ≠ [] := by simp [formatParam]
  have hi : Unindented isWhitespace (formatParam p) := by
    by_cases hkey : p.1 = []
    · rw [formatParam, hkey]
      intro c hc
      obtain rfl : '=' = c := by simpa using hc
      decide
    · exact hk.2.2.append hkey _
  have hp : Unpadded isWhitespace (formatParam p) := by
    rw [formatParam, unpadded_append (by simp)]
    intro c hc
    cases hval : p.2 with
    | nil =>
      rw [hval] at hc
      obtain rfl : '=' = c := by simpa using hc
      decide
    | cons d s =>
      rw [hval, List.getLast?_cons_cons] at hc
      exact hv.2 c (by rw [hval]; exact hc)
  unfold setPair
  rw [trim_eq_self hi hp, if_neg hne, formatParam, splitOnce_append hk.2.1]

theorem foldl_setPair (ps : List (Text × Text)) (h : ∀ p ∈ ps, KeyOk p.1 ∧ ValueOk p.2)
    (info : StreamIdInfo) :
    (ps.map formatParam).foldl setPair info = ps.foldl (fun info p => info.setParam p.1 p.2) info := by
  induction ps generalizing info with
  | nil => rfl
  | cons p ps ih =>
    have hp := h p (by simp)
    rw [List.map_cons, List.foldl_cons, List.foldl_cons, setPair_formatParam hp.1 hp.2]
    exact ih (fun q hq => h q (by simp [hq])) _

theorem parse_marker (s : Text) :
    parse (marker ++ s) = (s.splitOn ',').foldl setPair { raw := marker ++ s } := by
  have hne : marker ++ s ≠ [] := by simp [marker]
  have hdrop : (marker ++ s).dropPrefix? marker = some s :=
    List.dropPrefix?_eq_some_iff.mpr ⟨marker, rfl, by simp⟩
  simp only [parse, hne, if_false, hdrop]

/-- A formatted Stream ID is read parameter by parameter. -/
theorem parse_toStreamId (h : ∀ p ∈ info.params, KeyOk p.1 ∧ ValueOk p.2) :
    parse info.toStreamId =
      info.params.foldl (fun info p => info.setParam p.1 p.2) { raw := info.toStreamId } := by
  by_cases hnil : info.params = []
  · have hempty : info.toStreamId = [] := by simp [toStreamId, hnil]
    rw [hempty, hnil]
    rfl
  · have hparts : info.params.map formatParam ≠ [] := by simpa using hnil
    have htext : info.toStreamId = marker ++ [','].intercalate (info.params.map formatParam) := by
      simp only [toStreamId, hparts, if_false]
    have hcomma : ∀ l ∈ info.params.map formatParam, ',' ∉ l := by
      intro l hl
      obtain ⟨p, hp, rfl⟩ := List.mem_map.mp hl
      obtain ⟨hk, hv⟩ := h p hp
      simp [formatParam, hk.1, hv.1]
    rw [htext, parse_marker, List.splitOn_intercalate _ hcomma hparts, foldl_setPair _ h]

theorem setParam_extra (h : k ∉ fieldKeys) :
    info.setParam k v = { info with extra := info.extra ++ [(k, v)] } := by
  simp only [fieldKeys, List.mem_cons, List.not_mem_nil, or_false, not_or] at h
  simp only [setParam, h, if_false]

theorem foldl_setParam_extra (ps : List (Text × Text)) (h : ∀ p ∈ ps, p.1 ∉ fieldKeys)
    (info : StreamIdInfo) :
    ps.foldl (fun info p => info.setParam p.1 p.2) info = { info with extra := info.extra ++ ps } := by
  induction ps generalizing info with
  | nil => simp
  | cons p ps ih =>
    rw [List.foldl_cons, setParam_extra (h p (by simp)), ih (fun q hq => h q (by simp [hq]))]
    simp

theorem foldl_setParam_params (h : ∀ p ∈ info.extra, p.1 ∉ fieldKeys) (raw : Text) :
    info.params.foldl (fun info p => info.setParam p.1 p.2) { raw := raw } = { info with raw := raw } := by
  have hfields (i : StreamIdInfo) : (info.extra.foldl (fun info p => info.setParam p.1 p.2) i) =
      { i with extra := i.extra ++ info.extra } := foldl_setParam_extra _ h i
  obtain ⟨r, m, s, t, u, n, extra, raw'⟩ := info
  simp only [params, List.foldl_append, hfields]
  cases r <;> cases m <;> cases s <;> cases t <;> cases u <;> cases n <;> rfl

/-- A parameter is one of the fields, under its key, or an extra one. -/
theorem key_of_mem_params (h : p ∈ info.params) : p.1 ∈ fieldKeys ∨ p ∈ info.extra := by
  simp only [params, List.mem_append, Option.mem_toList, Option.map_eq_some_iff] at h
  rcases h with ((((((⟨v, -, rfl⟩ | ⟨v, -, rfl⟩) | ⟨v, -, rfl⟩) | ⟨v, -, rfl⟩) | ⟨v, -, rfl⟩) |
    ⟨v, -, rfl⟩) | h)
  · exact .inl (by simp [fieldKeys])
  · exact .inl (by simp [fieldKeys])
  · exact .inl (by simp [fieldKeys])
  · exact .inl (by simp [fieldKeys])
  · exact .inl (by simp [fieldKeys])
  · exact .inl (by simp [fieldKeys])
  · exact .inr h

/-- Fields that hold no separators survive being formatted and parsed. -/
theorem Formattable.roundTrip (h : info.Formattable) :
    parse info.toStreamId = { info with raw := info.toStreamId } := by
  have hparams : ∀ p ∈ info.params, KeyOk p.1 ∧ ValueOk p.2 := by
    intro p hp
    have hv : ValueOk p.2 := h.values p.2 (List.mem_map_of_mem hp)
    rcases key_of_mem_params hp with hk | hk
    · exact ⟨keyOk_of_mem_fieldKeys hk, hv⟩
    · exact ⟨(h.keys p hk).1, hv⟩
  rw [parse_toStreamId hparams]
  exact foldl_setParam_params (fun p hp => (h.keys p hp).2) _

end Params

section Parsed

variable {info : StreamIdInfo} {k v pair s : Text}

theorem mem_values {x : Text} : x ∈ info.values ↔ info.resource = some x ∨ info.mode = some x ∨
    info.sessionId = some x ∨ info.contentType = some x ∨ info.userName = some x ∨
      info.hostName = some x ∨ x ∈ info.extra.map Prod.snd := by
  have hfield (key : Text) (o : Option Text) :
      x ∈ (o.map (key, ·)).toList.map Prod.snd ↔ o = some x := by
    cases o <;> simp [eq_comm]
  simp only [values, params, List.map_append, List.mem_append, hfield, or_assoc]

theorem mem_values_setParam {x : Text} (h : x ∈ (info.setParam k v).values) :
    x = v ∨ x ∈ info.values := by
  rw [mem_values] at h ⊢
  unfold setParam at h
  split_ifs at h <;> grind

theorem extra_setParam : (info.setParam k v).extra =
    if k ∈ fieldKeys then info.extra else info.extra ++ [(k, v)] := by
  by_cases hk : k ∈ fieldKeys
  · rw [if_pos hk]
    simp only [fieldKeys, List.mem_cons, List.not_mem_nil, or_false] at hk
    rcases hk with rfl | rfl | rfl | rfl | rfl | rfl <;> rfl
  · rw [if_neg hk, setParam_extra hk]

theorem Formattable.setParam (h : info.Formattable) (hk : KeyOk k) (hv : ValueOk v) :
    (info.setParam k v).Formattable where
  values x hx := by
    rcases mem_values_setParam hx with rfl | hx
    · exact hv
    · exact h.values x hx
  keys p hp := by
    rw [extra_setParam] at hp
    split_ifs at hp with hf
    · exact h.keys p hp
    · rcases List.mem_append.mp hp with hp | hp
      · exact h.keys p hp
      · rw [List.mem_singleton.mp hp]
        exact ⟨hk, hf⟩

/-- What a piece between commas sets can be formatted again. -/
theorem Formattable.setPair (h : info.Formattable) (hc : ',' ∉ pair) : (info.setPair pair).Formattable := by
  have hc' : ',' ∉ trim isWhitespace pair := fun hm => hc (mem_of_mem_trim hm)
  unfold StreamIdInfo.setPair
  dsimp only
  split_ifs
  · exact h
  · cases hs : splitOnce '=' (trim isWhitespace pair) with
    | none => exact h
    | some e =>
      obtain ⟨k, v⟩ := e
      obtain ⟨htrim, hk⟩ := splitOnce_eq_some.mp hs
      have hi : Unindented isWhitespace (k ++ '=' :: v) := htrim ▸ unindented_trim pair
      have hp : Unpadded isWhitespace (k ++ '=' :: v) := htrim ▸ unpadded_trim pair
      rw [htrim] at hc'
      simp only [List.mem_append, List.mem_cons, not_or] at hc'
      refine h.setParam ⟨hc'.1, hk, hi.take (List.prefix_append ..)⟩ ⟨hc'.2.2, fun c hc => ?_⟩
      rw [unpadded_append (by simp)] at hp
      cases v with
      | nil => simp at hc
      | cons d v => exact hp c (by rwa [List.getLast?_cons_cons])

theorem formattable_blank (raw : Text) : Formattable { raw := raw } :=
  ⟨by simp [values, params], by simp⟩

/-- What is read from a structured Stream ID can be formatted again. -/
theorem formattable_parse_marker (s : Text) : (parse (marker ++ s)).Formattable := by
  have hpieces (ps : List Text) (hps : ∀ l ∈ ps, ',' ∉ l) (info : StreamIdInfo) (h : info.Formattable) :
      (ps.foldl StreamIdInfo.setPair info).Formattable := by
    induction ps generalizing info with
    | nil => exact h
    | cons l ps ih => exact ih (fun q hq => hps q (by simp [hq])) _ (h.setPair (hps l (by simp)))
  rw [parse_marker]
  exact hpieces _ (fun l hl => not_mem_of_mem_splitOn hl) _ (formattable_blank _)

/-- A plain Stream ID is its resource. -/
theorem parse_plain (h : ¬marker <+: s) (hs : s ≠ []) : parse s = { resource := some s, raw := s } := by
  have hdrop : s.dropPrefix? marker = none := by
    cases hd : s.dropPrefix? marker with
    | none => rfl
    | some t =>
      obtain ⟨p, rfl, hp⟩ := List.dropPrefix?_eq_some_iff.mp hd
      rw [eq_of_beq hp] at h
      exact absurd (List.prefix_append ..) h
  simp only [parse, hs, if_false, hdrop]

end Parsed

/-- Formatting a parsed Stream ID and parsing the result gives the same fields exactly for a
structured Stream ID, and for a plain one that has no comma and does not end in whitespace. -/
theorem reformat_iff (s : Text) :
    SameFields (parse (parse s).toStreamId) (parse s) ↔
      marker <+: s ∨ ',' ∉ s ∧ Unpadded isWhitespace s := by
  have hsame {info : StreamIdInfo} (h : info.Formattable) :
      SameFields (parse info.toStreamId) info := by
    rw [h.roundTrip]
    exact ⟨rfl, rfl, rfl, rfl, rfl, rfl, rfl⟩
  by_cases hm : marker <+: s
  · obtain ⟨t, rfl⟩ := hm
    exact iff_of_true (hsame (formattable_parse_marker t)) (.inl (List.prefix_append ..))
  by_cases hs : s = []
  · subst hs
    exact iff_of_true (hsame (formattable_blank [])) (.inr (by decide))
  rw [parse_plain hm hs]
  constructor
  · intro h
    obtain ⟨t, ht⟩ : ∃ t, toStreamId { resource := some s, raw := s } = marker ++ t :=
      ⟨"r=".toList ++ s, by simp [toStreamId, params, formatParam]⟩
    have hr := h.resource
    rw [ht] at hr
    have hv : ValueOk s := by
      refine (formattable_parse_marker t).values s ?_
      simp [values, params, hr]
    exact .inr hv
  · rintro (h | h)
    · exact absurd h hm
    · exact hsame ⟨by simpa [values, params, ValueOk] using h, by simp⟩

/-- A plain Stream ID with a comma in it comes back as another resource and a user name. -/
theorem reformat_adds_user :
    ¬SameFields (parse (parse "live,u=root".toList).toStreamId) (parse "live,u=root".toList) ∧
      (parse "live,u=root".toList).userName = none ∧
      (parse (parse "live,u=root".toList).toStreamId).userName = some "root".toList := by
  refine ⟨fun h => ?_, by decide, by decide⟩
  exact absurd h.userName (by decide)

/-- Fields whose texts hold no comma, end in no whitespace and are not mistaken for another key
are read back as they were, the extra ones in their order. -/
theorem parse_toStreamId_same (info : StreamIdInfo)
    (hv : ∀ v ∈ info.values, ',' ∉ v ∧ Unpadded isWhitespace v)
    (hk : ∀ p ∈ info.extra, ',' ∉ p.1 ∧ '=' ∉ p.1 ∧ Unindented isWhitespace p.1 ∧ p.1 ∉ fieldKeys) :
    SameFields (parse info.toStreamId) info := by
  have h : info.Formattable :=
    ⟨hv, fun p hp => ⟨⟨(hk p hp).1, (hk p hp).2.1, (hk p hp).2.2.1⟩, (hk p hp).2.2.2⟩⟩
  rw [h.roundTrip]
  exact ⟨rfl, rfl, rfl, rfl, rfl, rfl, rfl⟩

/-- An empty value, one with an equals sign, an empty key and a key that comes twice. -/
theorem parse_toStreamId_same_extra :
    let info : StreamIdInfo :=
      { resource := some [], userName := some "a=b".toList
        extra := [("k ".toList, []), ([], "v".toList), ("k ".toList, " w".toList)] }
    SameFields (parse info.toStreamId) info :=
  parse_toStreamId_same _ (by decide) (by decide)

end StreamIdInfo

end SrtBridge
