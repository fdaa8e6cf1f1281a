import SrtBridge.Protocol.StreamId

/-! Packet filter strings: the check a configuration's FEC string goes through, and what
writing out a checked one gives back. `usize` has 64 bits. -/

namespace SrtBridge

open General

inductive FecLayout where
  | even | staircase
  deriving DecidableEq, Repr

/-- ARQ interaction mode with FEC. -/
inductive ArqMode where
  | always | onReq | never
  deriving DecidableEq, Repr

structure FecConfig where
  cols : ℕ := 10
  rows : ℕ := 1
  layout : FecLayout := .staircase
  arq : ArqMode := .onReq
  deriving DecidableEq

def dropPlus : Text → Text
  | '+' :: s => s
  | s => s

/-- `str::parse::<usize>`. -/
def parseUsize (s : Text) : Option ℕ := (parseDigits (dropPlus s)).filter (· < 2 ^ 64)

/-- `str::parse::<i64>`. -/
def parseI64 : Text → Option ℤ
  | '-' :: s => ((parseDigits s).filter (· ≤ 2 ^ 63)).map fun n : ℕ => -(n : ℤ)
  | s => ((parseDigits (dropPlus s)).filter (· < 2 ^ 63)).map fun n : ℕ => (n : ℤ)

def FecLayout.name : FecLayout → Text
  | .even => "even".toList
  | .staircase => "staircase".toList

def ArqMode.name : ArqMode → Text
  | .always => "always".toList
  | .onReq => "onreq".toList
  | .never => "never".toList

namespace FecConfig

def setCols (config : FecConfig) (value : Text) : Except Text FecConfig :=
  match parseUsize value with
  | none => .error ("invalid cols value: '".toList ++ value ++ "'".toList)
  | some n => if n = 0 then .error "cols must be >= 1".toList else .ok { config with cols := n }

/-- The number of rows is read as a signed number, of which the absolute value counts. -/
def setRows (config : FecConfig) (value : Text) : Except Text FecConfig :=
  match parseI64 value with
  | none => .error ("invalid rows value: '".toList ++ value ++ "'".toList)
  | some raw =>
    if raw.natAbs = 0 then .error "rows must be >= 1".toList else .ok { config with rows := raw.natAbs }

def setLayout (config : FecConfig) (value : Text) : Except Text FecConfig :=
  if value = FecLayout.even.name then .ok { config with layout := .even }
  else if value = FecLayout.staircase.name then .ok { config with layout := .staircase }
  else .error ("invalid layout: '".toList ++ value ++ "', expected 'even' or 'staircase'".toList)

def setArq (config : FecConfig) (value : Text) : Except Text FecConfig :=
  if value = ArqMode.always.name then .ok { config with arq := .always }
  else if value = ArqMode.onReq.name then .ok { config with arq := .onReq }
  else if value = ArqMode.never.name then .ok { config with arq := .never }
  else .error ("invalid arq: '".toList ++ value ++ "', expected 'always', 'onreq', or 'never'".toList)

/-- Take in one parameter; unknown keys are passed over. -/
def setParam (config : FecConfig) (key value : Text) : Except Text FecConfig :=
  if key = "cols".toList then config.setCols value
  else if key = "rows".toList then config.setRows value
  else if key = "layout".toList then config.setLayout value
  else if key = "arq".toList then config.setArq value
  else .ok config

def keyValue (param : Text) : Option (Text × Text) :=
  (splitOnce ':' (trim isWhitespace param)).map fun kv => (trim isWhitespace kv.1, trim isWhitespace kv.2)

def readParam (config : FecConfig) (param : Text) : Except Text FecConfig :=
  if trim isWhitespace param = [] then .ok config
  else
    match keyValue param with
    | none =>
      .error ("invalid parameter '".toList ++ trim isWhitespace param ++ "', expected key:value".toList)
    | some (key, value) => config.setParam key value

def parse (configStr : Text) : Except Text FecConfig :=
  let trimmed := trim isWhitespace configStr
  if trimmed = [] then .error "empty config string".toList
  else
    let parts := splitOnce ',' trimmed
    let head := (parts.map Prod.fst).getD trimmed
    if trim isWhitespace head ≠ "fec".toList then
      .error ("config must start with 'fec', got '".toList ++ head ++ "'".toList)
    else
      match parts with
      | none => .ok {}
      | some (_, params) => (params.splitOn ',').foldlM readParam {}

/-- `Display for FecConfig`. -/
def format (config : FecConfig) : Text :=
  "fec,cols:".toList ++ Nat.toDigits 10 config.cols ++ ",rows:".toList ++
    Nat.toDigits 10 config.rows ++ ",layout:".toList ++ config.layout.name ++ ",arq:".toList ++
    config.arq.name

/-- The four parameters a configuration is written out with. -/
def fields (config : FecConfig) : List Text :=
  ["cols".toList ++ ':' :: Nat.toDigits 10 config.cols, "rows".toList ++ ':' :: Nat.toDigits 10 config.rows,
    "layout".toList ++ ':' :: config.layout.name, "arq".toList ++ ':' :: config.arq.name]

/-- The pieces a configuration string has after its first comma. -/
def pieces (configStr : Text) : List Text :=
  ((splitOnce ',' (trim isWhitespace configStr)).map fun e => e.2.splitOn ',').getD []

def lastValue (key : Text) (pieces : List Text) : Option Text :=
  (((pieces.filterMap keyValue).filter (·.1 = key)).map Prod.snd).getLast?

section Numbers

theorem dropPlus_toDigits (n : ℕ) : dropPlus (Nat.toDigits 10 n) = Nat.toDigits 10 n := by
  cases h : Nat.toDigits 10 n with
  | nil => rfl
  | cons c s =>
    have hc : c.isDigit = true := isDigit_of_mem_toDigits (n := n) (by simp [h])
    unfold dropPlus
    split
    · rename_i he
      obtain ⟨rfl, -⟩ := List.cons_eq_cons.mp he
      cases hc
    · rfl

theorem parseUsize_toDigits {n : ℕ} (h : n < 2 ^ 64) : parseUsize (Nat.toDigits 10 n) = some n := by
  rw [parseUsize, dropPlus_toDigits, parseDigits_toDigits]
  simpa using h

theorem parseI64_toDigits (n : ℕ) :
    parseI64 (Nat.toDigits 10 n) = if n < 2 ^ 63 then some (n : ℤ) else none := by
  have hunsigned : parseI64 (Nat.toDigits 10 n) =
      ((parseDigits (dropPlus (Nat.toDigits 10 n))).filter (· < 2 ^ 63)).map fun n : ℕ => (n : ℤ) := by
    cases h : Nat.toDigits 10 n with
    | nil => rfl
    | cons c s =>
      have hc : c.isDigit = true := isDigit_of_mem_toDigits (n := n) (by simp [h])
      unfold parseI64
      split
      · rename_i he
        obtain ⟨rfl, -⟩ := List.cons_eq_cons.mp he
        cases hc
      · rfl
  rw [hunsigned, dropPlus_toDigits, parseDigits_toDigits]
  split_ifs with hn
  · simpa using hn
  · simpa using hn

theorem parseUsize_lt {s : Text} {n : ℕ} (h : parseUsize s = some n) : n < 2 ^ 64 := by
  have hf := (Option.filter_eq_some_iff.mp h).2
  simpa using hf

theorem parseI64_natAbs_le {s : Text} {raw : ℤ} (h : parseI64 s = some raw) : raw.natAbs ≤ 2 ^ 63 := by
  unfold parseI64 at h
  split at h
  · obtain ⟨n, hn, rfl⟩ := Option.map_eq_some_iff.mp h
    have hf := (Option.filter_eq_some_iff.mp hn).2
    simp only [decide_eq_true_eq] at hf
    omega
  · obtain ⟨n, hn, rfl⟩ := Option.map_eq_some_iff.mp h
    have hf := (Option.filter_eq_some_iff.mp hn).2
    simp only [decide_eq_true_eq] at hf
    omega

theorem natAbs_eq_iff {s : Text} {raw : ℤ} (h : parseI64 s = some raw) :
    raw.natAbs = 2 ^ 63 ↔ raw = -2 ^ 63 := by
  unfold parseI64 at h
  split at h
  · obtain ⟨n, hn, rfl⟩ := Option.map_eq_some_iff.mp h
    omega
  · obtain ⟨n, hn, rfl⟩ := Option.map_eq_some_iff.mp h
    have hf := (Option.filter_eq_some_iff.mp hn).2
    simp only [decide_eq_true_eq] at hf
    omega

end Numbers

section Fold

variable {config config' c : FecConfig} {key value param : Text} {params : List Text}

/-- Every number in a configuration is in its range. -/
structure Sound (config : FecConfig) : Prop where
  cols : 1 ≤ config.cols ∧ config.cols < 2 ^ 64
  rows : 1 ≤ config.rows ∧ config.rows ≤ 2 ^ 63

theorem sound_default : Sound {} := ⟨by decide, by decide⟩

/-- The number of rows after a parameter: its absolute value, if it is one for the rows. -/
theorem setParam_ok (h : config.setParam key value = .ok c) :
    (config.Sound → c.Sound) ∧
      if key = "rows".toList then ∃ raw, parseI64 value = some raw ∧ c.rows = raw.natAbs
      else c.rows = config.rows := by
  have hcols_ne : "cols".toList ≠ "rows".toList := by decide
  have hlayout_ne : "layout".toList ≠ "rows".toList := by decide
  have harq_ne : "arq".toList ≠ "rows".toList := by decide
  unfold setParam at h
  split_ifs at h with hcols hrows hlayout harq
  · unfold setCols at h
    cases hv : parseUsize value with
    | none => simp [hv] at h
    | some n =>
      simp only [hv] at h
      split_ifs at h with hn
      obtain rfl := Except.ok.inj h
      rw [hcols, if_neg hcols_ne]
      exact ⟨fun hs => ⟨⟨Nat.one_le_iff_ne_zero.mpr hn, parseUsize_lt hv⟩, hs.rows⟩, rfl⟩
  · unfold setRows at h
    cases hv : parseI64 value with
    | none => simp [hv] at h
    | some raw =>
      simp only [hv] at h
      split_ifs at h with hn
      obtain rfl := Except.ok.inj h
      rw [if_pos hrows]
      exact ⟨fun hs => ⟨hs.cols, Nat.one_le_iff_ne_zero.mpr hn, parseI64_natAbs_le hv⟩, raw, rfl, rfl⟩
  · rw [hlayout, if_neg hlayout_ne]
    unfold setLayout at h
    split_ifs at h <;> obtain rfl := Except.ok.inj h <;> exact ⟨fun hs => ⟨hs.cols, hs.rows⟩, rfl⟩
  · rw [harq, if_neg harq_ne]
    unfold setArq at h
    split_ifs at h <;> obtain rfl := Except.ok.inj h <;> exact ⟨fun hs => ⟨hs.cols, hs.rows⟩, rfl⟩
  · obtain rfl := Except.ok.inj h
    rw [if_neg hrows]
    exact ⟨fun hs => hs, rfl⟩

theorem readParam_ok (h : config.readParam param = .ok c) :
    keyValue param = none ∧ c = config ∨
      ∃ kv, keyValue param = some kv ∧ config.setParam kv.1 kv.2 = .ok c := by
  unfold readParam at h
  split_ifs at h with hempty
  · left
    simp [keyValue, hempty, splitOnce, (Except.ok.inj h).symm]
  · cases hk : keyValue param with
    | none => simp [hk] at h
    | some kv => exact .inr ⟨kv, rfl, by simpa [hk] using h⟩

theorem lastValue_concat (params : List Text) (param : Text) :
    lastValue key (params ++ [param]) =
      match keyValue param with
      | some kv => if kv.1 = key then some kv.2 else lastValue key params
      | none => lastValue key params := by
  unfold lastValue
  rw [List.filterMap_append]
  cases hk : keyValue param with
  | none => simp [hk]
  | some kv =>
    dsimp only
    split_ifs with hkey
    · simp [hk, hkey]
    · simp [hk, hkey]

/-- After all pieces the rows are those of the last parameter for them. -/
theorem foldlM_readParam_ok (h : params.foldlM readParam config = .ok c) :
    (config.Sound → c.Sound) ∧
      match lastValue "rows".toList params with
      | some value => ∃ raw, parseI64 value = some raw ∧ c.rows = raw.natAbs
      | none => c.rows = config.rows := by
  induction params using List.reverseRecOn generalizing c with
  | nil =>
    obtain rfl := Except.ok.inj h
    exact ⟨fun hs => hs, rfl⟩
  | append_singleton params param ih =>
    rw [List.foldlM_append] at h
    cases hm : params.foldlM readParam config with
    | error err =>
      rw [hm] at h
      cases h
    | ok mid =>
      rw [hm] at h
      change [param].foldlM readParam mid = .ok c at h
      have hlast : mid.readParam param = .ok c := by simpa using h
      obtain ⟨hsound, hrows⟩ := ih hm
      rw [lastValue_concat]
      rcases readParam_ok hlast with ⟨hk, rfl⟩ | ⟨kv, hk, hset⟩
      · rw [hk]
        exact ⟨hsound, hrows⟩
      · obtain ⟨hs, hr⟩ := setParam_ok hset
        rw [hk]
        refine ⟨fun h₀ => hs (hsound h₀), ?_⟩
        dsimp only
        split_ifs at hr ⊢ with hkey
        · exact hr
        · rw [hr]
          exact hrows

/-- What an accepted configuration string says of the rows. -/
theorem parse_ok {s : Text} (h : parse s = .ok c) :
    c.Sound ∧
      match lastValue "rows".toList (pieces s) with
      | some value => ∃ raw, parseI64 value = some raw ∧ c.rows = raw.natAbs
      | none => c.rows = 1 := by
  unfold parse at h
  dsimp only at h
  split_ifs at h
  unfold pieces
  cases hp : splitOnce ',' (trim isWhitespace s) with
  | none =>
    rw [hp] at h
    obtain rfl := Except.ok.inj h
    exact ⟨sound_default, rfl⟩
  | some e =>
    rw [hp] at h
    obtain ⟨hs, hr⟩ := foldlM_readParam_ok h
    exact ⟨hs sound_default, hr⟩

end Fold

section Format

variable {c : FecConfig} {s key value : Text}

def Solid (s : Text) : Prop := ∀ a ∈ s, isWhitespace a = false

instance : Decidable (Solid s) := List.decidableBAll (isWhitespace · = false) s

theorem Solid.append {t : Text} (hs : Solid s) (ht : Solid t) : Solid (s ++ t) := by
  intro a ha
  rcases List.mem_append.mp ha with ha | ha
  · exact hs a ha
  · exact ht a ha

theorem Solid.trim (h : Solid s) : trim isWhitespace s = s :=
  trim_eq_self (fun a ha => h a (List.mem_of_mem_head? ha)) fun a ha => h a (List.mem_of_mem_getLast? ha)

theorem solid_toDigits (n : ℕ) : Solid (Nat.toDigits 10 n) := by
  intro a ha
  have hd : a.isDigit = true := isDigit_of_mem_toDigits ha
  simp only [Char.isDigit, Bool.and_eq_true, decide_eq_true_eq, ge_iff_le, UInt32.le_iff_toNat_le] at hd
  have hlo : 48 ≤ a.toNat := hd.1
  have hhi : a.toNat ≤ 57 := hd.2
  simp [isWhitespace]
  omega

theorem solid_layout (l : FecLayout) : Solid l.name := by
  cases l <;> decide

theorem solid_arq (m : ArqMode) : Solid m.name := by
  cases m <;> decide

/-- A parameter written out is read as its key and value. -/
theorem readParam_written (hk : Solid key) (hcolon : ':' ∉ key) (hv : Solid value) :
    c.readParam (key ++ ':' :: value) = c.setParam key value := by
  have hsolid : Solid (key ++ ':' :: value) :=
    hk.append ((by decide : Solid [':']).append hv)
  have hne : key ++ ':' :: value ≠ [] := by simp
  have hkv : keyValue (key ++ ':' :: value) = some (key, value) := by
    rw [keyValue, hsolid.trim, splitOnce_append hcolon, Option.map_some, hk.trim, hv.trim]
  unfold readParam
  rw [hsolid.trim, if_neg hne, hkv]

theorem readParam_cols {n : ℕ} (h : 1 ≤ n ∧ n < 2 ^ 64) :
    c.readParam ("cols".toList ++ ':' :: Nat.toDigits 10 n) = .ok { c with cols := n } := by
  rw [readParam_written (by decide) (by decide) (solid_toDigits n)]
  show c.setCols _ = _
  unfold setCols
  rw [parseUsize_toDigits h.2]
  exact if_neg (Nat.one_le_iff_ne_zero.mp h.1)

theorem readParam_rows {n : ℕ} (h : 1 ≤ n) :
    c.readParam ("rows".toList ++ ':' :: Nat.toDigits 10 n) =
      if n < 2 ^ 63 then .ok { c with rows := n }
      else .error ("invalid rows value: '".toList ++ Nat.toDigits 10 n ++ "'".toList) := by
  rw [readParam_written (by decide) (by decide) (solid_toDigits n)]
  show c.setRows _ = _
  unfold setRows
  rw [parseI64_toDigits]
  split_ifs
  · exact if_neg (Nat.one_le_iff_ne_zero.mp h)
  · rfl

theorem readParam_layout (l : FecLayout) :
    c.readParam ("layout".toList ++ ':' :: l.name) = .ok { c with layout := l } := by
  rw [readParam_written (by decide) (by decide) (solid_layout l)]
  cases l <;> rfl

theorem readParam_arq (m : ArqMode) :
    c.readParam ("arq".toList ++ ':' :: m.name) = .ok { c with arq := m } := by
  rw [readParam_written (by decide) (by decide) (solid_arq m)]
  cases m <;> rfl

theorem comma_not_mem_toDigits (n : ℕ) : ',' ∉ Nat.toDigits 10 n := by
  intro h
  have hd : ','.isDigit = true := isDigit_of_mem_toDigits h
  cases hd

theorem format_eq (c : FecConfig) : c.format = "fec".toList ++ ',' :: [','].intercalate c.fields := by
  have hfec : "fec,cols:".toList = "fec".toList ++ ',' :: ("cols".toList ++ [':']) := by decide
  have hrows : ",rows:".toList = ',' :: ("rows".toList ++ [':']) := by decide
  have hlayout : ",layout:".toList = ',' :: ("layout".toList ++ [':']) := by decide
  have harq : ",arq:".toList = ',' :: ("arq".toList ++ [':']) := by decide
  unfold format
  rw [hfec, hrows, hlayout, harq]
  simp only [fields, List.intercalate, List.intersperse, List.flatten_cons, List.flatten_nil,
    List.append_assoc, List.cons_append, List.nil_append, List.append_nil]

theorem format_ne_nil (c : FecConfig) : c.format ≠ [] := by
  rw [format_eq]
  exact List.append_ne_nil_of_right_ne_nil _ (List.cons_ne_nil _ _)

theorem comma_not_mem_fields {l : Text} (h : l ∈ c.fields) : ',' ∉ l := by
  have hlayout (l : FecLayout) : ',' ∉ l.name := by cases l <;> decide
  have harq (m : ArqMode) : ',' ∉ m.name := by cases m <;> decide
  simp only [fields, List.mem_cons, List.not_mem_nil, or_false] at h
  rcases h with rfl | rfl | rfl | rfl
  · simp [comma_not_mem_toDigits]
  · simp [comma_not_mem_toDigits]
  · simp [hlayout]
  · simp [harq]

theorem solid_format (c : FecConfig) : Solid c.format := by
  have hlit : Solid "fec,cols:".toList ∧ Solid ",rows:".toList ∧ Solid ",layout:".toList ∧
      Solid ",arq:".toList := by decide
  unfold format
  exact ((((((hlit.1.append (solid_toDigits _)).append hlit.2.1).append (solid_toDigits _)).append
    hlit.2.2.1).append (solid_layout _)).append hlit.2.2.2).append (solid_arq _)

/-- What a configuration in range is read back as: itself, unless it has too many rows. -/
theorem parse_format (h : c.Sound) :
    parse c.format =
      if c.rows < 2 ^ 63 then .ok c
      else .error ("invalid rows value: '".toList ++ Nat.toDigits 10 c.rows ++ "'".toList) := by
  have hsplit : splitOnce ',' c.format = some ("fec".toList, [','].intercalate c.fields) := by
    rw [format_eq]
    exact splitOnce_append (by decide) _
  have hfec : trim isWhitespace "fec".toList = "fec".toList := by decide
  have hpieces : ([','].intercalate c.fields).splitOn ',' = c.fields :=
    List.splitOn_intercalate _ (fun l hl => comma_not_mem_fields hl) (List.cons_ne_nil _ _)
  have hread : parse c.format = c.fields.foldlM readParam {} := by
    simp only [parse, (solid_format c).trim, format_ne_nil, if_false, hsplit, Option.map_some,
      Option.getD_some, hfec, ne_eq, not_true_eq_false, hpieces]
  rw [hread, fields, List.foldlM_cons, readParam_cols h.cols]
  show [_, _, _].foldlM readParam _ = _
  rw [List.foldlM_cons, readParam_rows h.rows.1]
  split_ifs
  · show [_, _].foldlM readParam _ = _
    rw [List.foldlM_cons, readParam_layout]
    show [_].foldlM readParam _ = _
    rw [List.foldlM_cons, readParam_arq]
    rfl
  · rfl

end Format

/-- A configuration that the check accepts has at least one column and one row; written out, it is
accepted again as the same one unless its last number of rows was the least signed number. -/
theorem parse_format_iff {s : Text} {c : FecConfig} (h : parse s = .ok c) :
    (1 ≤ c.cols ∧ 1 ≤ c.rows ∧ parse c.format = .ok c) ↔
      (lastValue "rows".toList (pieces s)).bind parseI64 ≠ some (-2 ^ 63) := by
  obtain ⟨hs, hrows⟩ := parse_ok h
  have hmost : c.rows < 2 ^ 63 ↔ (lastValue "rows".toList (pieces s)).bind parseI64 ≠ some (-2 ^ 63) := by
    cases hl : lastValue "rows".toList (pieces s) with
    | none =>
      rw [hl] at hrows
      have hone : c.rows = 1 := hrows
      simp [hone]
    | some value =>
      rw [hl] at hrows
      obtain ⟨raw, hraw, hr⟩ := hrows
      have habs := natAbs_eq_iff hraw
      have hle := hs.rows.2
      rw [Option.bind_some, hraw, hr, ne_eq, Option.some_inj, ← habs]
      omega
  rw [parse_format hs, ← hmost]
  constructor
  · rintro ⟨-, -, hp⟩
    by_contra hn
    rw [if_neg hn] at hp
    cases hp
  · intro hlt
    exact ⟨hs.cols.1, hs.rows.1, if_pos hlt⟩

theorem parse_format_iff_negative :
    (1 ≤ 10 ∧ 1 ≤ 5 ∧ parse (format { rows := 5 }) = .ok { rows := 5 }) ↔
      (lastValue "rows".toList (pieces "fec, rows:1,rows:-5".toList)).bind parseI64 ≠ some (-2 ^ 63) :=
  parse_format_iff (c := { rows := 5 }) (by decide)

/-- The least signed number of rows is accepted, and not when it is written out. -/
theorem parse_format_rejected :
    parse "fec,rows:-9223372036854775808".toList = .ok { rows := 2 ^ 63 } ∧
      parse (format { rows := 2 ^ 63 }) = .error "invalid rows value: '9223372036854775808'".toList := by
  decide +kernel

end FecConfig

end SrtBridge
