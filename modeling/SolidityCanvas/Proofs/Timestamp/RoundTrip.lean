/-
Timestamps that are written and read back.

* `wellFormed_of_parse?`: the parts of a timestamp that is read are in their
  bounds;
* `parse?_text`: such a timestamp is read back as it was written, if its zone
  is less than a day away.
-/
import Mathlib.Data.List.TakeWhile
import SolidityCanvas.Proofs.Number.Expansion
import SolidityCanvas.Timestamp

namespace SolidityCanvas.Timestamp

/-- The parts are in their bounds. -/
structure WellFormed (t : Timestamp) : Prop where
  year : 0 ≤ t.date.year ∧ t.date.year < 10000
  date : t.date.isValid
  hour : t.hour < 24
  minute : t.minute < 60
  second : t.second < 60
  nanosecond : t.nanosecond < 1000000000

/-! ### Digits -/

/-- A character that is read as a digit. -/
def IsDigit (c : Char) : Prop := digit? c = some (c.toNat - '0'.toNat)

theorem isDigit_of_isSome {c : Char} (h : (digit? c).isSome) : IsDigit c := by
  unfold IsDigit
  unfold digit? at h ⊢
  split
  · rfl
  · rename_i hc
    simp [hc] at h

theorem isDigit_of_mem_padded {width n : Nat} : ∀ c ∈ padded width n, IsDigit c := by
  have hdigit : ∀ {c : Char}, c.isDigit → IsDigit c := by
    intro c hc
    have hbounds : '0' ≤ c ∧ c ≤ '9' := by
      simp only [Char.isDigit, Bool.and_eq_true, decide_eq_true_eq] at hc
      exact ⟨hc.1, hc.2⟩
    simp [IsDigit, digit?, hbounds]
  intro c hc
  rcases List.mem_append.mp hc with hc | hc
  · rw [(List.mem_replicate.mp hc).2]
    rfl
  · exact hdigit (Text.isDigit_of_mem_toDigits c hc)

theorem length_padded {width n : Nat} (hw : 0 < width) (h : n < 10 ^ width) :
    (padded width n).length = width := by
  have hle := (Nat.length_toDigits_le_iff (b := 10) (by norm_num) hw).mpr h
  simp only [padded, List.length_append, List.length_replicate]
  omega

theorem decimalValue_replicate_zero (k : Nat) : decimalValue (List.replicate k '0') = 0 := by
  induction k with
  | zero => rfl
  | succ k ih =>
    rw [List.replicate_succ', decimalValue, List.foldl_append]
    change decimalValue (List.replicate k '0') * 10 + 0 = 0
    rw [ih]

theorem decimalValue_padded (width n : Nat) : decimalValue (padded width n) = n := by
  rw [padded, decimalValue, List.foldl_append]
  change List.foldl _ (decimalValue (List.replicate _ '0')) _ = n
  rw [decimalValue_replicate_zero]
  exact Decimal.decimalValue_toDigits n

theorem digits?_append {ds : List Char} (hds : ∀ c ∈ ds, IsDigit c) (value : Nat) (cs : List Char) :
    digits? ds.length value (ds ++ cs) =
      some (ds.foldl (fun n c => n * 10 + (c.toNat - '0'.toNat)) value, cs) := by
  induction ds generalizing value with
  | nil => rfl
  | cons c ds ih =>
    have hc := hds c List.mem_cons_self
    rw [IsDigit] at hc
    simp only [List.length_cons, List.cons_append, digits?, hc, Option.bind_eq_bind,
      Option.bind_some, List.foldl_cons]
    exact ih (fun x hx => hds x (List.mem_cons_of_mem c hx)) _

/-- A number is read back from its digits. -/
theorem digits?_padded {width n : Nat} (hw : 0 < width) (h : n < 10 ^ width) (cs : List Char) :
    digits? width 0 (padded width n ++ cs) = some (n, cs) := by
  have hread := digits?_append (@isDigit_of_mem_padded width n) 0 cs
  rw [length_padded hw h] at hread
  rw [hread]
  exact congrArg (fun n => some (n, cs)) (decimalValue_padded width n)

theorem digit?_lt {c : Char} {d : Nat} (h : digit? c = some d) : d < 10 := by
  unfold digit? at h
  split at h
  · obtain rfl := Option.some_inj.mp h
    rename_i hc
    simp only [Bool.and_eq_true, decide_eq_true_eq] at hc
    have hle : c.toNat ≤ 57 := hc.2
    have hzero : '0'.toNat = 48 := rfl
    omega
  · cases h

theorem digits?_lt : ∀ (count value : Nat) {cs rest : List Char} {n : Nat},
    digits? count value cs = some (n, rest) → n < (value + 1) * 10 ^ count := by
  intro count
  induction count with
  | zero =>
    rintro value cs rest n ⟨⟩
    omega
  | succ count ih =>
    intro value cs rest n h
    match cs, h with
    | c :: cs, h =>
      simp only [digits?, Option.bind_eq_bind, Option.bind_eq_some_iff] at h
      obtain ⟨d, hd, h⟩ := h
      have hlt := digit?_lt hd
      have hn := ih _ h
      calc n < (value * 10 + d + 1) * 10 ^ count := hn
        _ ≤ (value + 1) * 10 * 10 ^ count := by
          gcongr
          omega
        _ = (value + 1) * 10 ^ (count + 1) := by ring

theorem oneOrTwoDigits?_padded {n : Nat} (h : n < 100) (cs : List Char) :
    oneOrTwoDigits? (padded 2 n ++ cs) = some (n, cs) := by
  rw [oneOrTwoDigits?, digits?_padded (by norm_num) (by omega)]

/-! ### Fractions of a second -/

/-- What can follow the seconds. -/
def Ends (cs : List Char) : Prop := ∀ c ∈ cs.head?, c = 'Z' ∨ c = '+' ∨ c = '-'

theorem fraction_of_ends {cs : List Char} (h : Ends cs) : fraction cs = (0, cs) := by
  unfold fraction
  split
  · rename_i mark d rest
    rw [if_neg]
    rcases h mark rfl with rfl | rfl | rfl <;> simp
  · rfl

/-- Digits up to something that is none. -/
theorem takeWhile_digits {ds cs : List Char} (hds : ∀ c ∈ ds, IsDigit c) (h : Ends cs) :
    (ds ++ cs).takeWhile (fun c => (digit? c).isSome) = ds := by
  rw [List.takeWhile_append_of_pos fun c hc => by rw [hds c hc]; rfl]
  cases cs with
  | nil => simp
  | cons c cs =>
    have hc : (digit? c).isSome = false := by
      rcases h c rfl with rfl | rfl | rfl <;> rfl
    simp [hc]

theorem fraction_fractionText {n : Nat} (hn : n < 1000000000) {cs : List Char} (h : Ends cs) :
    fraction (fractionText n ++ cs) = (n, cs) := by
  by_cases hzero : n = 0
  · subst hzero
    exact fraction_of_ends h
  obtain ⟨ds, hds⟩ : ∃ ds, ((padded 9 n).reverse.dropWhile (· == '0')).reverse = ds := ⟨_, rfl⟩
  have htext : fractionText n = '.' :: ds := by simp [fractionText, hzero, hds]
  have hlength := length_padded (n := n) (by norm_num : 0 < 9) (by omega)
  -- the zeros that were left out
  obtain ⟨k, hk⟩ : ∃ k, padded 9 n = ds ++ List.replicate k '0' := by
    have hzeros : ∀ c ∈ (padded 9 n).reverse.takeWhile (· == '0'), c = '0' := fun c hc => by
      simpa using List.mem_takeWhile_imp hc
    refine ⟨((padded 9 n).reverse.takeWhile (· == '0')).length, ?_⟩
    rw [← hds, ← List.reverse_replicate, ← List.eq_replicate_of_mem hzeros, ← List.reverse_append,
      List.takeWhile_append_dropWhile, List.reverse_reverse]
  have hdigits : ∀ c ∈ ds, IsDigit c := fun c hc =>
    isDigit_of_mem_padded c (hk ▸ List.mem_append_left _ hc)
  obtain ⟨d, rest, rfl⟩ : ∃ d rest, ds = d :: rest := by
    refine List.exists_cons_of_ne_nil ?_
    rintro rfl
    have hvalue := decimalValue_padded 9 n
    rw [hk, List.nil_append, decimalValue_replicate_zero] at hvalue
    exact hzero hvalue.symm
  have hfirst : (digit? d).isSome := by
    rw [hdigits d List.mem_cons_self]
    rfl
  have hnine : ((d :: rest) ++ List.replicate 9 '0').take 9 = padded 9 n := by
    have hlength' := congrArg List.length hk
    rw [hlength, List.length_append, List.length_replicate] at hlength'
    rw [hk, List.take_append, List.take_of_length_le (by omega), List.take_replicate]
    congr 2
    omega
  have hall := takeWhile_digits hdigits h
  rw [htext, List.cons_append, List.cons_append, fraction]
  simp only [beq_self_eq_true, Bool.true_or, hfirst, Bool.and_self, if_true]
  rw [← List.cons_append, hall, hnine, List.drop_left]
  exact congrArg (fun n => (n, cs)) (decimalValue_padded 9 n)

/-! ### Zones -/

theorem ends_zoneText (offset : Int) : Ends (zoneText offset) := by
  intro c hc
  rw [zoneText] at hc
  split at hc
  · simp at hc
    exact .inl hc.symm
  · simp at hc
    split at hc
    · exact .inr (.inr hc.symm)
    · exact .inr (.inl hc.symm)

theorem zone?_zoneText {offset : Int} (h : offset.natAbs / 60 < 24) :
    zone? (zoneText offset) = some offset := by
  rw [zoneText]
  split
  · rename_i hzero
    rw [beq_iff_eq.mp hzero]
    rfl
  · have hhours := digits?_padded (n := offset.natAbs / 60) (by norm_num : 0 < 2) (by omega)
      (':' :: padded 2 (offset.natAbs % 60))
    have hminutes := digits?_padded (n := offset.natAbs % 60) (by norm_num : 0 < 2) (by omega) []
    rw [List.append_nil] at hminutes
    have hbounds : ¬(offset.natAbs / 60 > 24) ∧ ¬(offset.natAbs % 60 > 60) := by omega
    by_cases hnegative : offset < 0
    · simp [zone?, hnegative, hhours, char?, hminutes, hbounds, abs_of_neg hnegative]
      omega
    · simp [zone?, hnegative, hhours, char?, hminutes, hbounds, abs_of_nonneg (not_lt.mp hnegative)]
      omega

/-! ### Timestamps -/

theorem nanosecond_lt (cs : List Char) : (fraction cs).1 < 1000000000 := by
  unfold fraction
  split
  · rename_i mark d rest
    split
    · obtain ⟨nine, hnine⟩ : ∃ nine, ((d :: rest).takeWhile (fun c => (digit? c).isSome) ++
        List.replicate 9 '0').take 9 = nine := ⟨_, rfl⟩
      have hdigits : ∀ x ∈ nine.map fun c => c.toNat - '0'.toNat, x < 10 := by
        intro x hx
        obtain ⟨c, hc, rfl⟩ := List.mem_map.mp hx
        rw [← hnine] at hc
        rcases List.mem_append.mp (List.mem_of_mem_take hc) with hc | hc
        · have hsome : (digit? c).isSome := List.mem_takeWhile_imp (p := fun c => (digit? c).isSome) hc
          exact digit?_lt (isDigit_of_isSome hsome)
        · rw [(List.mem_replicate.mp hc).2]
          norm_num
      have hlength : nine.length ≤ 9 := by
        rw [← hnine]
        exact List.length_take_le _ _
      have hlt := Decimal.valueOf_lt hdigits
      rw [Decimal.valueOf_eq_decimalValue, List.length_map] at hlt
      simp only [hnine]
      exact hlt.trans_le (Nat.pow_le_pow_right (by norm_num) hlength)
    · norm_num
  · norm_num

theorem char?_cons (c : Char) (cs : List Char) : char? c (c :: cs) = some cs := by
  rw [char?, if_pos (beq_self_eq_true c)]

theorem wellFormed_of_parse? {s : String} {t : Timestamp} (h : parse? s = some t) :
    t.WellFormed := by
  obtain ⟨⟨year, cs⟩, hyear, h⟩ := Option.bind_eq_some_iff.mp h
  obtain ⟨cs, -, h⟩ := Option.bind_eq_some_iff.mp h
  obtain ⟨⟨month, cs⟩, -, h⟩ := Option.bind_eq_some_iff.mp h
  obtain ⟨cs, -, h⟩ := Option.bind_eq_some_iff.mp h
  obtain ⟨⟨day, cs⟩, -, h⟩ := Option.bind_eq_some_iff.mp h
  obtain ⟨cs, -, h⟩ := Option.bind_eq_some_iff.mp h
  obtain ⟨⟨hour, cs⟩, -, h⟩ := Option.bind_eq_some_iff.mp h
  obtain ⟨cs, -, h⟩ := Option.bind_eq_some_iff.mp h
  obtain ⟨⟨minute, cs⟩, -, h⟩ := Option.bind_eq_some_iff.mp h
  obtain ⟨cs, -, h⟩ := Option.bind_eq_some_iff.mp h
  obtain ⟨⟨second, cs⟩, -, h⟩ := Option.bind_eq_some_iff.mp h
  obtain ⟨offset, -, h⟩ := Option.bind_eq_some_iff.mp h
  obtain ⟨hvalid, h⟩ := Option.ite_none_right_eq_some.mp h
  obtain rfl := Option.some_inj.mp h
  simp only [Bool.and_eq_true, decide_eq_true_eq] at hvalid
  have hlt := digits?_lt 4 0 hyear
  exact ⟨⟨by simp, by simp only; omega⟩, hvalid.1.1.1, hvalid.1.1.2, hvalid.1.2, hvalid.2,
    nanosecond_lt cs⟩

/-- **A timestamp that is written is read back**, if its zone is less than a
day away. -/
theorem parse?_text {t : Timestamp} (h : t.WellFormed) (hzone : t.isPortable) :
    parse? t.text = some t := by
  obtain ⟨⟨hyear, hyear'⟩, hdate, hhour, hminute, hsecond, hnanosecond⟩ := h
  have hvalid := hdate
  simp only [Date.isValid, Bool.and_eq_true, decide_eq_true_eq] at hvalid
  have hday : t.date.day < 10 ^ 2 := by
    have hdays : Date.daysInMonth t.date.year t.date.month ≤ 31 := by
      rw [Date.daysInMonth]
      split
      · split <;> norm_num
      · split <;> norm_num
    omega
  have htwo {n : Nat} (hn : n < 10 ^ 2) (cs : List Char) :
      digits? 2 0 (padded 2 n ++ cs) = some (n, cs) := digits?_padded (by norm_num) hn cs
  have hread := digits?_padded (n := t.date.year.natAbs) (by norm_num : 0 < 4) (by omega)
  have hzone' := zone?_zoneText (of_decide_eq_true hzone)
  have hnatAbs : (t.date.year.natAbs : ℤ) = t.date.year := Int.natAbs_of_nonneg hyear
  have htext : t.text.toList = padded 4 t.date.year.natAbs ++ '-' :: (padded 2 t.date.month ++
      '-' :: (padded 2 t.date.day ++ 'T' :: (padded 2 t.hour ++ ':' :: (padded 2 t.minute ++
      ':' :: (padded 2 t.second ++ (fractionText t.nanosecond ++ zoneText t.offset)))))) := by
    delta text
    rw [String.toList_ofList, if_neg (not_lt.mpr hyear)]
    simp only [List.nil_append, List.append_assoc, List.cons_append]
  -- The parts are read one by one, each with the sign before it.
  rw [parse?, htext]
  refine Option.bind_eq_some_iff.mpr ⟨_, hread _, ?_⟩
  refine Option.bind_eq_some_iff.mpr ⟨_, char?_cons _ _, ?_⟩
  refine Option.bind_eq_some_iff.mpr ⟨_, htwo (by omega) _, ?_⟩
  refine Option.bind_eq_some_iff.mpr ⟨_, char?_cons _ _, ?_⟩
  refine Option.bind_eq_some_iff.mpr ⟨_, htwo hday _, ?_⟩
  refine Option.bind_eq_some_iff.mpr ⟨_, char?_cons _ _, ?_⟩
  refine Option.bind_eq_some_iff.mpr ⟨_, oneOrTwoDigits?_padded (by omega) _, ?_⟩
  refine Option.bind_eq_some_iff.mpr ⟨_, char?_cons _ _, ?_⟩
  refine Option.bind_eq_some_iff.mpr ⟨_, htwo (by omega) _, ?_⟩
  refine Option.bind_eq_some_iff.mpr ⟨_, char?_cons _ _, ?_⟩
  refine Option.bind_eq_some_iff.mpr ⟨_, htwo (by omega) _, ?_⟩
  dsimp only
  rw [fraction_fractionText hnanosecond (ends_zoneText t.offset)]
  refine Option.bind_eq_some_iff.mpr ⟨_, hzone', ?_⟩
  simp only [hnatAbs, hdate, hhour, hminute, hsecond, decide_true, Bool.and_self, if_true]

end SolidityCanvas.Timestamp
