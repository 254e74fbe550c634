/-
Texts and their bytes.

* The bytes of a greater character are greater, whatever follows
  (`utf8EncodeChar_append_lt`).  So texts stand in the same order by their bytes and
  by their characters (`bytes_lt_bytes_iff`).
* The characters of a text of one byte a character can be read off its bytes one by
  one (`toList_eq_asciiChars`), which is much less work than decoding it.
-/
import Mathlib.Data.String.Basic
import Mathlib.Tactic.SplitIfs

namespace SolidityCanvas.Text

/-- The bytes of a text. -/
def bytes (s : String) : List UInt8 := s.toByteArray.data.toList

theorem bytes_eq_flatMap (s : String) : bytes s = s.toList.flatMap String.utf8EncodeChar := by
  rw [bytes]
  conv_lhs => rw [← String.ofList_toList (s := s), String.toByteArray_ofList, List.utf8Encode]
  simp

/-- Bytes of small numbers stand in the order of the numbers. -/
theorem cons_lt_cons_of_lt {m n : Nat} (h : m < n) (hn : n < 256) (s t : List UInt8) :
    UInt8.ofNat m :: s < UInt8.ofNat n :: t := by
  refine List.cons_lt_cons_iff.mpr (.inl ?_)
  rw [UInt8.lt_iff_toNat_lt, UInt8.toNat_ofNat', UInt8.toNat_ofNat']
  omega

/-- A byte decides, or else those after it. -/
theorem cons_lt_cons_of_le {m n : Nat} {s t : List UInt8} (h : m ≤ n) (hn : n < 256)
    (hst : m = n → s < t) : UInt8.ofNat m :: s < UInt8.ofNat n :: t := by
  rcases Nat.lt_or_eq_of_le h with hlt | rfl
  · exact cons_lt_cons_of_lt hlt hn s t
  · exact List.cons_lt_cons_iff.mpr (.inr ⟨rfl, hst rfl⟩)

/-- **The bytes of a greater character are greater**, whatever follows. -/
theorem utf8EncodeChar_append_lt {c d : Char} (h : c < d) (s t : List UInt8) :
    String.utf8EncodeChar c ++ s < String.utf8EncodeChar d ++ t := by
  have hlt : c.val.toNat < d.val.toNat := UInt32.lt_iff_toNat_lt.mp h
  have hmax : d.val.toNat < 0x110000 := by
    have hvalid := d.valid
    rw [UInt32.isValidChar, Nat.isValidChar] at hvalid
    omega
  simp only [String.utf8EncodeChar]
  -- A longer form begins with a greater byte; in forms of one length the places decide.
  split_ifs
  all_goals try omega
  all_goals try exact cons_lt_cons_of_lt (by omega) (by omega) _ _
  · refine cons_lt_cons_of_le (by omega) (by omega) fun _ => ?_
    exact cons_lt_cons_of_lt (by omega) (by omega) _ _
  · refine cons_lt_cons_of_le (by omega) (by omega) fun _ => ?_
    refine cons_lt_cons_of_le (by omega) (by omega) fun _ => ?_
    exact cons_lt_cons_of_lt (by omega) (by omega) _ _
  · refine cons_lt_cons_of_le (by omega) (by omega) fun _ => ?_
    refine cons_lt_cons_of_le (by omega) (by omega) fun _ => ?_
    refine cons_lt_cons_of_le (by omega) (by omega) fun _ => ?_
    exact cons_lt_cons_of_lt (by omega) (by omega) _ _

theorem bytes_lt_of_lt {a b : String} (h : a < b) : bytes a < bytes b := by
  rw [String.lt_iff_toList_lt] at h
  rw [bytes_eq_flatMap, bytes_eq_flatMap]
  generalize a.toList = cs, b.toList = ds at h
  induction h with
  | @nil d ds =>
    rw [List.flatMap_nil, List.flatMap_cons]
    obtain ⟨b, l, hl⟩ := List.exists_cons_of_ne_nil
      (List.append_ne_nil_of_left_ne_nil (String.utf8EncodeChar_ne_nil (c := d)) _)
    rw [hl]
    exact List.nil_lt_cons b l
  | rel h => exact utf8EncodeChar_append_lt h _ _
  | @cons c cs ds _ ih =>
    rw [List.flatMap_cons, List.flatMap_cons]
    exact List.append_left_lt ih

/-- **Texts stand in one order by their bytes and by their characters.** -/
theorem bytes_lt_bytes_iff {a b : String} : bytes a < bytes b ↔ a < b := by
  refine ⟨fun h => ?_, bytes_lt_of_lt⟩
  rcases lt_trichotomy a b with hlt | rfl | hlt
  · exact hlt
  · exact absurd h (List.lt_irrefl _)
  · exact absurd h (List.lt_asymm (bytes_lt_of_lt hlt))

/-! ### Texts of one byte a character -/

/-- The bytes of a text as characters. -/
def asciiChars (s : String) : List Char := s.toByteArray.data.toList.map fun b => Char.ofNat b.toNat

/-- Whether every character of a text is one byte. -/
def isAscii (s : String) : Bool := s.toByteArray.data.toList.all fun b => decide (b < 128)

theorem chars_utf8EncodeChar {c : Char} (h : ∀ b ∈ String.utf8EncodeChar c, b < 128) :
    (String.utf8EncodeChar c).map (fun b => Char.ofNat b.toNat) = [c] := by
  rw [String.utf8EncodeChar] at h ⊢
  -- The first byte of a longer character is above those of one byte.
  have hlong : ∀ {n : Nat} {rest : List UInt8}, 128 ≤ n → n < 256 →
      ¬ ∀ b ∈ UInt8.ofNat n :: rest, b < 128 := by
    intro n rest hn hlt h
    have hb := h _ List.mem_cons_self
    rw [UInt8.lt_iff_toNat_lt, UInt8.toNat_ofNat_of_lt' (by simpa using hlt)] at hb
    exact absurd hb (by simpa using hn)
  split_ifs at h ⊢ with h1 h2 h3
  · have hc : (UInt8.ofNat c.val.toNat).toNat = c.toNat :=
      UInt8.toNat_ofNat_of_lt' (Nat.lt_of_le_of_lt h1 (by decide))
    rw [List.map_singleton, hc, Char.ofNat_toNat]
  all_goals exact absurd h (hlong (by omega) (by omega))

/-- **The characters of a text of one byte each are its bytes.** -/
theorem toList_eq_asciiChars {s : String} (h : isAscii s = true) : s.toList = asciiChars s := by
  have hbytes : s.toByteArray.data.toList = s.toList.flatMap String.utf8EncodeChar :=
    bytes_eq_flatMap s
  simp only [isAscii, List.all_eq_true, decide_eq_true_eq] at h
  rw [asciiChars]
  rw [hbytes] at h ⊢
  rw [List.map_flatMap]
  generalize s.toList = cs at h ⊢
  induction cs with
  | nil => rfl
  | cons c cs ih =>
    simp only [List.flatMap_cons, List.forall_mem_append] at h ⊢
    rw [chars_utf8EncodeChar h.1, ← ih h.2]
    rfl

end SolidityCanvas.Text
