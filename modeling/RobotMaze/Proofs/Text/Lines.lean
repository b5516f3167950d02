import RobotMaze.Proofs.Program.Words
import Mathlib.Algebra.Group.Nat.Defs

/-!
# Numbers and lines in printed text

What is printed for the user is put together from numbers in decimal and from lines with a line feed
at the end of each.

* `Text.mem_ofInt` — a printed number has digits and perhaps a sign, so it is part of one line;
* `Text.length_ofNat_le_iff` — how many bytes a printed number takes;
* `Text.splitOn_inLines` — lines that were put together are found again by cutting at line feeds.
-/

namespace RobotMaze.Text

/-! ## Numbers -/

theorem utf8_ofList (cs : List Char) :
    utf8 (String.ofList cs) = cs.flatMap String.utf8EncodeChar := by
  simp [utf8, List.utf8Encode]

/-- A digit is one byte. -/
theorem utf8EncodeChar_of_isDigit {c : Char} (h : c.isDigit = true) :
    String.utf8EncodeChar c = [c.val.toUInt8] ∧ isAsciiDigit c.val.toUInt8 = true := by
  simp only [Char.isDigit, Bool.and_eq_true, decide_eq_true_eq, UInt32.le_iff_toNat_le] at h
  obtain ⟨hlow, hup⟩ := h
  change 48 ≤ c.val.toNat at hlow
  change c.val.toNat ≤ 57 at hup
  constructor
  · apply String.utf8EncodeChar_eq_singleton
    rw [Char.utf8Size_eq_one_iff, UInt32.le_iff_toNat_le]
    exact Nat.le_trans hup (by decide)
  · have hbyte : c.val.toUInt8.toNat = c.val.toNat := by
      rw [UInt32.toNat_toUInt8]
      omega
    simp only [isAsciiDigit, Bool.and_eq_true, decide_eq_true_eq, UInt8.le_iff_toNat_le, hbyte]
    exact ⟨hlow, hup⟩

/-- Digits are printed byte by byte. -/
theorem flatMap_of_isDigit {cs : List Char} (h : ∀ c ∈ cs, c.isDigit = true) :
    cs.flatMap String.utf8EncodeChar = cs.map fun c => c.val.toUInt8 := by
  induction cs with
  | nil => rfl
  | cons c cs ih =>
    rw [List.forall_mem_cons] at h
    rw [List.flatMap_cons, List.map_cons, (utf8EncodeChar_of_isDigit h.1).1, ih h.2]
    rfl

theorem ofNat_eq (n : Nat) : ofNat n = (Nat.toDigits 10 n).map fun c => c.val.toUInt8 := by
  have hdigits : ∀ c ∈ Nat.toDigits 10 n, c.isDigit = true :=
    fun c hc => Nat.isDigit_of_mem_toDigits (by decide) (by decide) hc
  rw [← flatMap_of_isDigit hdigits, ← utf8_ofList]
  rfl

theorem isAsciiDigit_of_mem_ofNat {n : Nat} {b : UInt8} (h : b ∈ ofNat n) :
    isAsciiDigit b = true := by
  rw [ofNat_eq] at h
  obtain ⟨c, hc, rfl⟩ := List.mem_map.1 h
  exact (utf8EncodeChar_of_isDigit
    (Nat.isDigit_of_mem_toDigits (by decide) (by decide) hc)).2

/-- A number is printed with at most `k` bytes exactly if it has at most `k` digits. -/
theorem length_ofNat_le_iff {n k : Nat} (hk : 0 < k) : (ofNat n).length ≤ k ↔ n < 10 ^ k := by
  rw [ofNat_eq, List.length_map]
  exact Nat.length_toDigits_le_iff (by decide) hk

theorem ofInt_natCast (n : Nat) : ofInt n = ofNat n := rfl

theorem ofInt_negSucc (n : Nat) : ofInt (Int.negSucc n) = 45 :: ofNat (n + 1) := by
  show utf8 ("-" ++ toString (n + 1)) = _
  simp only [utf8, ofNat, String.toUTF8_eq_toByteArray, String.toByteArray_append,
    ByteArray.data_append, Array.toList_append]
  rfl

/-- A printed number has digits and perhaps a minus sign. -/
theorem mem_ofInt {n : Int} {b : UInt8} (h : b ∈ ofInt n) : b = 45 ∨ isAsciiDigit b = true := by
  cases n with
  | ofNat n => exact .inr (isAsciiDigit_of_mem_ofNat h)
  | negSucc n =>
    rw [ofInt_negSucc, List.mem_cons] at h
    exact h.imp_right isAsciiDigit_of_mem_ofNat

theorem lineFeed_not_mem_ofInt (n : Int) : lineFeed ∉ ofInt n := by
  intro h
  rcases mem_ofInt h with h | h
  · cases h
  · cases h

theorem lineFeed_not_mem_padded (width : Nat) (n : Int) : lineFeed ∉ padded width n := by
  unfold padded
  rw [List.mem_append, not_or]
  refine ⟨fun h => ?_, lineFeed_not_mem_ofInt n⟩
  cases (List.mem_replicate.1 h).2

/-- A filled number takes the bytes it is given, or those it needs if they are more. -/
theorem length_padded (width n : Nat) :
    (padded width n).length = max width (ofNat n).length := by
  unfold padded
  rw [ofInt_natCast, List.length_append, List.length_replicate]
  omega

/-! ## Lines -/

/-- The lines one after another, with a line feed at the end of each. -/
def inLines (lines : List Text) : Text := lines.flatMap fun line => line ++ [lineFeed]

theorem inLines_cons (line : Text) (lines : List Text) :
    inLines (line :: lines) = line ++ lineFeed :: inLines lines := by
  rw [inLines, List.flatMap_cons, List.append_assoc]
  rfl

theorem inLines_append (lines lines' : List Text) :
    inLines (lines ++ lines') = inLines lines ++ inLines lines' := List.flatMap_append

/-- Lines are found again by cutting at line feeds. -/
theorem splitOn_inLines {lines : List Text} (h : ∀ line ∈ lines, lineFeed ∉ line) (rest : Text) :
    splitOn lineFeed (inLines lines ++ rest) = lines ++ splitOn lineFeed rest := by
  induction lines with
  | nil => rfl
  | cons line lines ih =>
    rw [List.forall_mem_cons] at h
    rw [inLines_cons, List.append_assoc, List.cons_append, splitOn_append h.1, ih h.2,
      List.cons_append]

/-- A text is cut on both sides of a cut as it would be on its own. -/
theorem splitOn_append_cons (sep : UInt8) (t rest : Text) :
    splitOn sep (t ++ sep :: rest) = splitOn sep t ++ splitOn sep rest := by
  induction t with
  | nil => exact splitOn_append List.not_mem_nil rest
  | cons b t ih =>
    rw [List.cons_append, splitOn, splitOn, ih]
    split
    · rfl
    · cases hsplit : splitOn sep t with
      | nil => exact absurd hsplit (splitOn_ne_nil sep t)
      | cons piece pieces => rfl

theorem length_splitOn (sep : UInt8) (t : Text) :
    (splitOn sep t).length = t.count sep + 1 := by
  induction t with
  | nil => rfl
  | cons b t ih =>
    rw [splitOn]
    split
    · next hb => rw [List.length_cons, ih, hb, List.count_cons_self]
    · next hb =>
      rw [List.count_cons_of_ne hb, ← ih]
      cases hsplit : splitOn sep t with
      | nil => exact absurd hsplit (splitOn_ne_nil sep t)
      | cons piece pieces => rfl

end RobotMaze.Text
