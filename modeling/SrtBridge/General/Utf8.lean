import Mathlib.Tactic
import Mathlib.Data.List.DropRight

/-! UTF-8 read without loss of position. What is no encoding of a character becomes the replacement
character, one for each longest start of an encoding that breaks off. -/

namespace SrtBridge.General

def utf8 (s : List Char) : List UInt8 := s.flatMap String.utf8EncodeChar

/-- The character whose encoding the bytes begin with. -/
def decodeChar? (bs : List UInt8) : Option Char := bs.toByteArray.utf8DecodeChar? 0

/-- The byte may be the second of an encoding of three or four bytes that begins with `lead`. -/
def isSecond (lead b : UInt8) : Bool :=
  (lead = 0xE0 ∧ 0xA0 ≤ b ∧ b ≤ 0xBF) ∨ (0xE1 ≤ lead ∧ lead ≤ 0xEC ∧ 0x80 ≤ b ∧ b ≤ 0xBF) ∨
    (lead = 0xED ∧ 0x80 ≤ b ∧ b ≤ 0x9F) ∨ (0xEE ≤ lead ∧ lead ≤ 0xEF ∧ 0x80 ≤ b ∧ b ≤ 0xBF) ∨
    (lead = 0xF0 ∧ 0x90 ≤ b ∧ b ≤ 0xBF) ∨ (0xF1 ≤ lead ∧ lead ≤ 0xF3 ∧ 0x80 ≤ b ∧ b ≤ 0xBF) ∨
    (lead = 0xF4 ∧ 0x80 ≤ b ∧ b ≤ 0x8F)

/-- How many bytes an encoding that breaks off takes up. -/
def brokenLength : List UInt8 → ℕ
  | lead :: b :: rest =>
    if isSecond lead b then
      if 0xF0 ≤ lead ∧ rest.head?.any (fun c => 0x80 ≤ c ∧ c ≤ 0xBF) then 3 else 2
    else 1
  | _ => 1

/-- What the bytes are read as, once `n` more of them have passed. -/
def readAfter : ℕ → List UInt8 → List Char
  | _, [] => []
  | n + 1, _ :: bs => readAfter n bs
  | 0, b :: bs =>
    match decodeChar? (b :: bs) with
    | some c => c :: readAfter (c.utf8Size - 1) bs
    | none => Char.ofNat 0xFFFD :: readAfter (brokenLength (b :: bs) - 1) bs

/-- The text the bytes are read as. -/
def fromUtf8Lossy (bs : List UInt8) : List Char := readAfter 0 bs

section Decode

variable {bs rest : List UInt8} {c : Char} {b : UInt8}

theorem brokenLength_pos (bs : List UInt8) : 0 < brokenLength bs := by
  unfold brokenLength
  split
  · split_ifs <;> decide
  · decide

theorem readAfter_eq (n : ℕ) (bs : List UInt8) : readAfter n bs = fromUtf8Lossy (bs.drop n) := by
  induction bs generalizing n with
  | nil => cases n <;> simp [readAfter, fromUtf8Lossy]
  | cons b bs ih =>
    cases n with
    | zero => rfl
    | succ n => exact ih n

/-- A character is read exactly where its encoding stands. -/
theorem decodeChar?_eq_some_iff : decodeChar? bs = some c ↔ String.utf8EncodeChar c <+: bs := by
  constructor
  · intro h
    have hbytes := String.toByteArray_utf8EncodeChar_of_utf8DecodeChar?_eq_some h
    have hlist := congrArg (fun a => a.data.toList) hbytes
    have htake : String.utf8EncodeChar c = bs.take c.utf8Size := by simpa using hlist
    exact htake ▸ List.take_prefix _ _
  · rintro ⟨rest, rfl⟩
    rw [decodeChar?, List.toByteArray_append]
    exact ByteArray.utf8DecodeChar?_utf8EncodeChar_append

theorem decodeChar?_encode (c : Char) (rest : List UInt8) :
    decodeChar? (String.utf8EncodeChar c ++ rest) = some c :=
  decodeChar?_eq_some_iff.mpr ⟨rest, rfl⟩

theorem utf8EncodeChar_ne_nil (c : Char) : String.utf8EncodeChar c ≠ [] :=
  List.ne_nil_of_length_pos (String.length_utf8EncodeChar c ▸ c.utf8Size_pos)

theorem fromUtf8Lossy_cons (b : UInt8) (bs : List UInt8) :
    fromUtf8Lossy (b :: bs) =
      match decodeChar? (b :: bs) with
      | some c => c :: fromUtf8Lossy ((b :: bs).drop c.utf8Size)
      | none => Char.ofNat 0xFFFD :: fromUtf8Lossy ((b :: bs).drop (brokenLength (b :: bs))) := by
  have hdrop {n : ℕ} (hn : 0 < n) : readAfter (n - 1) bs = fromUtf8Lossy ((b :: bs).drop n) := by
    obtain ⟨m, rfl⟩ := Nat.exists_eq_succ_of_ne_zero hn.ne'
    exact readAfter_eq m bs
  rw [fromUtf8Lossy, readAfter]
  cases decodeChar? (b :: bs) with
  | none => exact congrArg _ (hdrop (brokenLength_pos _))
  | some c => exact congrArg _ (hdrop c.utf8Size_pos)

/-- What has been encoded is read back, and the rest after it. -/
theorem fromUtf8Lossy_utf8 (s : List Char) (rest : List UInt8) :
    fromUtf8Lossy (utf8 s ++ rest) = s ++ fromUtf8Lossy rest := by
  induction s with
  | nil => rfl
  | cons c s ih =>
    have hsplit : utf8 (c :: s) ++ rest = String.utf8EncodeChar c ++ (utf8 s ++ rest) :=
      List.append_assoc ..
    obtain ⟨b, bs, hbs⟩ := List.exists_cons_of_ne_nil (utf8EncodeChar_ne_nil c)
    have hdecode := decodeChar?_encode c (utf8 s ++ rest)
    have hdrop : (String.utf8EncodeChar c ++ (utf8 s ++ rest)).drop c.utf8Size = utf8 s ++ rest := by
      rw [← String.length_utf8EncodeChar, List.drop_left]
    rw [hsplit]
    rw [hbs, List.cons_append] at hdecode hdrop ⊢
    rw [fromUtf8Lossy_cons, hdecode]
    dsimp only
    rw [hdrop, ih, List.cons_append]

theorem encode_eq_singleton (hb : b < 0x80) (h : b ∈ String.utf8EncodeChar c) :
    String.utf8EncodeChar c = [b] := by
  have hhigh (n m k : ℕ) (hm : 0 < m) (hk : 0x80 ≤ k) (hmk : m + k ≤ 0x100) : b ≠ UInt8.ofNat (n % m + k) := by
    rintro rfl
    have hmod := Nat.mod_lt n hm
    have hlt : n % m + k < UInt8.size := lt_of_lt_of_le (by omega) hmk
    rw [UInt8.lt_iff_toNat_lt, UInt8.toNat_ofNat_of_lt' hlt] at hb
    have hsmall : (0x80 : UInt8).toNat = 0x80 := rfl
    omega
  unfold String.utf8EncodeChar at h ⊢
  dsimp only at h ⊢
  split_ifs at h ⊢ with h₁ h₂ h₃
  · rw [List.mem_singleton.mp h]
  · simp only [List.mem_cons, List.not_mem_nil, or_false] at h
    rcases h with h | h
    · exact absurd h (hhigh _ _ _ (by decide) (by decide) (by decide))
    · exact absurd h (hhigh _ _ _ (by decide) (by decide) (by decide))
  · simp only [List.mem_cons, List.not_mem_nil, or_false] at h
    rcases h with h | h | h
    · exact absurd h (hhigh _ _ _ (by decide) (by decide) (by decide))
    · exact absurd h (hhigh _ _ _ (by decide) (by decide) (by decide))
    · exact absurd h (hhigh _ _ _ (by decide) (by decide) (by decide))
  · simp only [List.mem_cons, List.not_mem_nil, or_false] at h
    rcases h with h | h | h | h
    · exact absurd h (hhigh _ _ _ (by decide) (by decide) (by decide))
    · exact absurd h (hhigh _ _ _ (by decide) (by decide) (by decide))
    · exact absurd h (hhigh _ _ _ (by decide) (by decide) (by decide))
    · exact absurd h (hhigh _ _ _ (by decide) (by decide) (by decide))

theorem encode_ascii (hb : b < 0x80) : String.utf8EncodeChar (Char.ofNat b.toNat) = [b] := by
  have hlt : b.toNat < 0x80 := UInt8.lt_iff_toNat_lt.mp hb
  have hvalid : b.toNat.isValidChar := .inl (by omega)
  have hval : (Char.ofNat b.toNat).val.toNat = b.toNat := by
    rw [Char.ofNat, dif_pos hvalid]
    rfl
  unfold String.utf8EncodeChar
  dsimp only
  rw [hval, if_pos (by omega), UInt8.ofNat_toNat]

/-- Where a character's encoding begins before a byte below `0x80`, it ends before it. -/
theorem decodeChar?_append {bs : List UInt8} (hbs : bs ≠ []) (hb : b < 0x80) (rest : List UInt8) :
    decodeChar? (bs ++ b :: rest) = decodeChar? bs := by
  refine Option.ext fun c => ?_
  rw [decodeChar?_eq_some_iff, decodeChar?_eq_some_iff]
  refine ⟨fun h => ?_, fun h => h.trans (List.prefix_append ..)⟩
  by_cases hlen : (String.utf8EncodeChar c).length ≤ bs.length
  · exact List.prefix_of_prefix_length_le h (List.prefix_append ..) hlen
  · -- the encoding would reach over `b`
    have hmem : b ∈ String.utf8EncodeChar c := by
      have hpos : bs.length < (String.utf8EncodeChar c).length := not_le.mp hlen
      have hget := h.getElem hpos
      rw [List.getElem_append_right le_rfl] at hget
      simp at hget
      exact hget ▸ List.getElem_mem hpos
    rw [encode_eq_singleton hb hmem, List.length_singleton] at hlen
    exact absurd (List.length_pos_of_ne_nil hbs) hlen

theorem brokenLength_append (x : UInt8) (xs : List UInt8) (hb : b < 0x80) (rest : List UInt8) :
    brokenLength (x :: xs ++ b :: rest) = brokenLength (x :: xs) := by
  have hlt : b.toNat < 0x80 := UInt8.lt_iff_toNat_lt.mp hb
  have hsecond : isSecond x b = false := by
    simp [isSecond, UInt8.le_iff_toNat_le]
    omega
  cases xs with
  | nil => simp [brokenLength, hsecond]
  | cons y ys =>
    cases ys with
    | nil => simp [brokenLength, UInt8.not_le.mpr hb]
    | cons z zs => rfl

theorem brokenLength_le (x : UInt8) (xs : List UInt8) : brokenLength (x :: xs) ≤ (x :: xs).length := by
  cases xs with
  | nil => rfl
  | cons y ys =>
    unfold brokenLength
    dsimp only
    split_ifs with h₂ h₃
    · cases ys with
      | nil => simp at h₃
      | cons z zs => simp
    · simp
    · simp

/-- A text may be read up to a byte below `0x80`, and from there on. -/
theorem fromUtf8Lossy_append (bs : List UInt8) (hb : b < 0x80) (rest : List UInt8) :
    fromUtf8Lossy (bs ++ b :: rest) = fromUtf8Lossy bs ++ Char.ofNat b.toNat :: fromUtf8Lossy rest := by
  induction hn : bs.length using Nat.strong_induction_on generalizing bs with
  | _ n ih =>
  cases bs with
  | nil =>
    have hone := fromUtf8Lossy_utf8 [Char.ofNat b.toNat] rest
    rw [utf8, List.flatMap_cons, List.flatMap_nil, List.append_nil, encode_ascii hb] at hone
    exact hone
  | cons x xs =>
    have hrest {k : ℕ} (hk : 0 < k) (hle : k ≤ (x :: xs).length) :
        fromUtf8Lossy ((x :: xs ++ b :: rest).drop k) =
          fromUtf8Lossy ((x :: xs).drop k) ++ Char.ofNat b.toNat :: fromUtf8Lossy rest := by
      have hshort : ((x :: xs).drop k).length < n := by
        rw [List.length_drop]
        omega
      rw [List.drop_append_of_le_length hle]
      exact ih _ hshort _ rfl
    have hdecode := decodeChar?_append (List.cons_ne_nil x xs) hb rest
    have hbroken := brokenLength_append x xs hb rest
    rw [List.cons_append] at hdecode hbroken hrest ⊢
    rw [fromUtf8Lossy_cons, fromUtf8Lossy_cons, hdecode, hbroken]
    cases hc : decodeChar? (x :: xs) with
    | none => exact congrArg _ (hrest (brokenLength_pos _) (brokenLength_le x xs))
    | some c =>
      have hlen := (decodeChar?_eq_some_iff.mp hc).length_le
      rw [String.length_utf8EncodeChar] at hlen
      exact congrArg _ (hrest c.utf8Size_pos hlen)

/-- A step of the reading that gives NUL has passed the byte `0`. -/
theorem exists_read (b : UInt8) (bs : List UInt8) : ∃ c n, 0 < n ∧
    fromUtf8Lossy (b :: bs) = c :: fromUtf8Lossy ((b :: bs).drop n) ∧ (c = '\x00' → b = 0 ∧ n = 1) := by
  rw [fromUtf8Lossy_cons]
  cases hc : decodeChar? (b :: bs) with
  | none => exact ⟨_, _, brokenLength_pos _, rfl, fun h => absurd h (by decide)⟩
  | some c =>
    refine ⟨c, _, c.utf8Size_pos, rfl, ?_⟩
    rintro rfl
    have hencoding : String.utf8EncodeChar '\x00' = [0] := rfl
    have hfirst := decodeChar?_eq_some_iff.mp hc
    rw [hencoding, List.cons_prefix_cons] at hfirst
    exact ⟨hfirst.1.symm, rfl⟩

theorem fromUtf8Lossy_nul (bs rest : List UInt8) :
    fromUtf8Lossy (bs ++ 0 :: rest) = fromUtf8Lossy bs ++ '\x00' :: fromUtf8Lossy rest :=
  fromUtf8Lossy_append bs (by decide) rest

theorem nul_mem_iff (bs : List UInt8) : '\x00' ∈ fromUtf8Lossy bs ↔ 0 ∈ bs := by
  constructor
  · intro h
    induction hn : bs.length using Nat.strong_induction_on generalizing bs with
    | _ n ih =>
    cases bs with
    | nil => cases h
    | cons b bs =>
      obtain ⟨c, k, hk, hread, hnul⟩ := exists_read b bs
      rw [hread, List.mem_cons] at h
      rcases h with h | h
      · rw [(hnul h.symm).1]
        exact List.mem_cons_self
      · have hshort : ((b :: bs).drop k).length < n := by
          rw [List.length_drop, ← hn, List.length_cons]
          omega
        exact List.mem_of_mem_drop (ih _ hshort _ h rfl)
  · intro h
    obtain ⟨before, after, rfl⟩ := List.append_of_mem h
    rw [fromUtf8Lossy_nul]
    simp

theorem forall_nul_iff (bs : List UInt8) : (∀ c ∈ fromUtf8Lossy bs, c = '\x00') ↔ ∀ b ∈ bs, b = 0 := by
  induction bs with
  | nil => simp [fromUtf8Lossy, readAfter]
  | cons b bs ih =>
    constructor
    · intro h
      obtain ⟨c, n, -, hread, hnul⟩ := exists_read b bs
      rw [hread] at h
      obtain ⟨rfl, rfl⟩ := hnul (h c List.mem_cons_self)
      exact List.forall_mem_cons.mpr ⟨rfl, ih.mp fun c' hc' => h c' (List.mem_cons_of_mem _ hc')⟩
    · intro h
      obtain ⟨rfl, hbs⟩ := List.forall_mem_cons.mp h
      rw [show fromUtf8Lossy (0 :: bs) = '\x00' :: fromUtf8Lossy bs from fromUtf8Lossy_nul [] bs]
      exact List.forall_mem_cons.mpr ⟨rfl, ih.mpr hbs⟩

end Decode

end SrtBridge.General
