import ArkInfra.Lib.Binary64
import Mathlib.Algebra.Order.Field.Power
import Mathlib.Algebra.Order.Field.Rat
import Mathlib.Tactic.Linarith
import Mathlib.Tactic.Positivity

/-!
# Positive numbers printed and read back

Rounding may turn a positive number into zero, and so may printing a number and
reading it back.  `Positive c` holds of the doubles above zero whose exponent is
at least `-c`: `round_positive` and `div_positive` say when rounding and division
stay above zero, and `parse_display_positive` that what is printed for such a
number is read back as one above zero.
-/

namespace ArkInfra

namespace Binary64

/-- The number is above zero, and its exponent is not below `-c`. -/
def Positive (c : Nat) : Binary64 → Prop
  | .nan => False
  | .inf neg => neg = false
  | .fin neg mant exp => neg = false ∧ 0 < mant ∧ -(c : Int) ≤ exp

theorem fraction_pos {mant : Nat} (h : 0 < mant) (exp : Int) :
    0 < (fraction mant exp).1 := by
  unfold fraction scale
  split_ifs
  · exact Nat.mul_pos h (Nat.pow_pos (by decide))
  · exact h

theorem fraction_den_pos (mant : Nat) (exp : Int) : 0 < (fraction mant exp).2 := by
  unfold fraction scale
  split_ifs
  · exact Nat.one_pos
  · exact Nat.mul_pos Nat.one_pos (Nat.pow_pos (by decide))

/-- Zero is below every finite positive number, whatever exponent it is written
with. -/
theorem lt_zero_fin {mant : Nat} (h : 0 < mant) (e exp : Int) :
    lt (.fin false 0 e) (.fin false mant exp) = true := by
  have hzero : (fraction 0 e).1 = 0 := by
    unfold fraction scale
    split_ifs
    · exact Nat.zero_mul _
    · rfl
  have hmul : 0 < (fraction mant exp).1 * (fraction 0 e).2 :=
    Nat.mul_pos (fraction_pos h exp) (fraction_den_pos 0 e)
  simp only [lt, isNeg, Bool.false_and, hzero, Nat.zero_mul, hmul, decide_true]

theorem lt_of_positive {c : Nat} {x : Binary64} (h : x.Positive c) (e : Int) :
    lt (.fin false 0 e) x = true := by
  cases x with
  | nan =>
    exact h.elim
  | inf neg =>
    obtain rfl : neg = false := h
    rfl
  | fin neg mant exp =>
    obtain ⟨rfl, hmant, -⟩ := h
    exact lt_zero_fin hmant e exp

section Rounding

/-- A scaled fraction is at least one when the number is at least the power. -/
theorem scale_le_iff {base num den : Nat} (hbase : 0 < base) (e : Int) :
    (scale base num den (-e)).2 ≤ (scale base num den (-e)).1 ↔
      (base : ℚ) ^ e * den ≤ num := by
  have hpos : (0 : ℚ) < base := Nat.cast_pos.mpr hbase
  unfold scale
  split_ifs with he
  · obtain ⟨n, hn⟩ := Int.eq_ofNat_of_zero_le he
    obtain rfl : e = -(n : Int) := by omega
    rw [zpow_neg, zpow_natCast, inv_mul_le_iff₀ (pow_pos hpos n)]
    simp only [hn, Int.toNat_natCast]
    rw [← Nat.cast_pow, ← Nat.cast_mul, Nat.cast_le, Nat.mul_comm]
  · obtain ⟨n, hn⟩ := Int.eq_ofNat_of_zero_le (show 0 ≤ e by omega)
    subst hn
    rw [zpow_natCast, ← Nat.cast_pow, ← Nat.cast_mul, Nat.cast_le, neg_neg, Int.toNat_natCast,
      Nat.mul_comm]

theorem floorLog_spec {base num den : Nat} (hbase : 1 < base) (hnum : num ≠ 0) :
    (base : ℚ) ^ floorLog base num den * den ≤ num := by
  unfold floorLog
  dsimp only
  split_ifs with h
  · exact (scale_le_iff (by omega) _).mp h
  · have hpos : (0 : ℚ) < base := by exact_mod_cast (by omega : 0 < base)
    have hden : (den : ℚ) ≤ (base : ℚ) ^ ((Nat.log base den : Int) + 1) := by
      exact_mod_cast (Nat.lt_pow_succ_log_self hbase den).le
    have hlog : (base : ℚ) ^ (Nat.log base num : Int) ≤ num := by
      exact_mod_cast Nat.pow_log_le_self base hnum
    calc (base : ℚ) ^ ((Nat.log base num : Int) - (Nat.log base den : Int) - 1) * den
        ≤ (base : ℚ) ^ ((Nat.log base num : Int) - (Nat.log base den : Int) - 1) *
            (base : ℚ) ^ ((Nat.log base den : Int) + 1) := by gcongr
      _ = (base : ℚ) ^ (Nat.log base num : Int) := by
          rw [← zpow_add₀ hpos.ne']
          congr 1
          omega
      _ ≤ num := hlog

theorem le_floorLog {num den c : Nat} (hden : 0 < den) (h : den ≤ num * 2 ^ c) :
    -(c : Int) - 1 ≤ floorLog 2 num den := by
  have hlog : Nat.log 2 den < Nat.log 2 num + 1 + c := by
    refine Nat.log_lt_of_lt_pow hden.ne' ?_
    calc den ≤ num * 2 ^ c := h
      _ < 2 ^ (Nat.log 2 num + 1) * 2 ^ c :=
          Nat.mul_lt_mul_of_pos_right (Nat.lt_pow_succ_log_self (by decide) num)
            (Nat.pow_pos (by decide))
      _ = 2 ^ (Nat.log 2 num + 1 + c) := (Nat.pow_add ..).symm
  unfold floorLog
  dsimp only
  split_ifs <;> omega

theorem divNearest_pos {num den : Nat} (hden : 0 < den) (h : den ≤ num) :
    0 < divNearest num den := by
  have hq : 0 < num / den := Nat.div_pos h hden
  unfold divNearest
  dsimp only
  split_ifs <;> omega

theorem scale_den_pos {base num den : Nat} (hbase : 0 < base) (hden : 0 < den) (e : Int) :
    0 < (scale base num den e).2 := by
  unfold scale
  split_ifs
  · exact hden
  · exact Nat.mul_pos hden (Nat.pow_pos hbase)

/-- **Rounding.**  A fraction that is not below the least double is rounded to a
number above zero. -/
theorem round_positive {num den c : Nat} (hden : 0 < den) (h : den ≤ num * 2 ^ c)
    (hc : c ≤ 1074) : (round false num den).Positive (c + 53) := by
  have hnum : num ≠ 0 := by
    rintro rfl
    omega
  have hexp := le_floorLog hden h
  unfold round
  rw [if_neg hnum]
  dsimp only
  generalize he : max (floorLog 2 num den - 52) (-1074) = e
  -- the number is at least two to the exponent it is scaled by
  have hpower : (2 : ℚ) ^ e * den ≤ num := by
    rcases max_choice (floorLog 2 num den - 52) (-1074) with hmax | hmax
    · have hle : e ≤ floorLog 2 num den := by omega
      calc (2 : ℚ) ^ e * den ≤ (2 : ℚ) ^ floorLog 2 num den * den := by
            gcongr
            norm_num
        _ ≤ num := floorLog_spec (by decide) hnum
    · have hle : e ≤ -(c : Int) := by omega
      have hcast : (den : ℚ) ≤ num * 2 ^ c := by exact_mod_cast h
      calc (2 : ℚ) ^ e * den ≤ (2 : ℚ) ^ (-(c : Int)) * den := by
            gcongr
            norm_num
        _ ≤ num := by
            rw [zpow_neg, zpow_natCast, inv_mul_le_iff₀ (by positivity), mul_comm]
            exact hcast
  have hmant : 0 < divNearest (scale 2 num den (-e)).1 (scale 2 num den (-e)).2 :=
    divNearest_pos (scale_den_pos (by decide) hden _)
      ((scale_le_iff (show 0 < 2 by decide) e).mpr hpower)
  have hlow : -((c + 53 : Nat) : Int) ≤ e := by omega
  split_ifs
  · rfl
  · exact ⟨rfl, by positivity, by dsimp only; omega⟩
  · rfl
  · exact ⟨rfl, hmant, hlow⟩

theorem fraction_le {mant : Nat} {exp : Int} {c : Nat} (hmant : 0 < mant)
    (hexp : -(c : Int) ≤ exp) :
    (fraction mant exp).2 ≤ (fraction mant exp).1 * 2 ^ c := by
  unfold fraction scale
  split_ifs with h
  · exact Nat.mul_pos (Nat.mul_pos hmant (Nat.pow_pos (by decide))) (Nat.pow_pos (by decide))
  · calc 1 * 2 ^ (-exp).toNat ≤ 1 * 2 ^ c :=
          Nat.mul_le_mul_left 1 (Nat.pow_le_pow_right (by decide) (by omega))
      _ ≤ mant * 2 ^ c := Nat.mul_le_mul_right _ hmant

/-- **Division** by a positive number of at most `2 ^ b`. -/
theorem div_positive {x : Binary64} {c b mant : Nat} {exp : Int} (hx : x.Positive c)
    (hmant : 0 < mant) (hsize : (fraction mant exp).1 ≤ (fraction mant exp).2 * 2 ^ b)
    (hc : c + b ≤ 1074) : (div x (.fin false mant exp)).Positive (c + b + 53) := by
  cases x with
  | nan =>
    exact hx.elim
  | inf neg =>
    obtain rfl : neg = false := hx
    rfl
  | fin neg m e =>
    obtain ⟨rfl, hm, he⟩ := hx
    have hfraction := fraction_le hm he
    simp only [div, if_neg hmant.ne']
    refine round_positive (Nat.mul_pos (fraction_den_pos m e) (fraction_pos hmant exp)) ?_ hc
    calc (fraction m e).2 * (fraction mant exp).1
        ≤ ((fraction m e).1 * 2 ^ c) * ((fraction mant exp).2 * 2 ^ b) :=
          Nat.mul_le_mul hfraction hsize
      _ = (fraction m e).1 * (fraction mant exp).2 * 2 ^ (c + b) := by
          rw [Nat.pow_add, Nat.mul_mul_mul_comm]

end Rounding

section Texts

theorem toLower_of_isDigit {c : Char} (h : Text.isDigit c = true) : c.toLower = c := by
  simp only [Text.isDigit, Bool.and_eq_true, decide_eq_true_eq, Char.le_def] at h
  have hupper : ¬ (c.val ≥ 'A'.val ∧ c.val ≤ 'Z'.val) := by
    rintro ⟨hge, -⟩
    exact absurd (UInt32.le_trans hge h.2) (by decide)
  unfold Char.toLower
  rw [dif_neg hupper]

theorem parse_of_digit {c : Char} (hc : Text.isDigit c = true) (cs : List Char) :
    parse (String.ofList (c :: cs)) = parseNumber false (c :: cs) := by
  have hne : ∀ d : Char, Text.isDigit d = false → c ≠ d := by
    rintro d hd rfl
    rw [hc] at hd
    cases hd
  have hword : ∀ word : String, (word.toList.head?.any fun d => !Text.isDigit d) = true →
      (c :: cs).map Char.toLower ≠ word.toList := by
    intro word hhead heq
    rw [← heq, List.map_cons, toLower_of_isDigit hc] at hhead
    simp [hc] at hhead
  unfold parse
  rw [String.toList_ofList]
  dsimp only
  split
  · rename_i heq
    exact absurd (List.cons.inj heq).1 (hne '-' (by decide))
  · rename_i heq
    exact absurd (List.cons.inj heq).1 (hne '+' (by decide))
  · rw [if_neg (not_or.mpr ⟨hword "inf" (by decide), hword "infinity" (by decide)⟩),
      if_neg (hword "nan" (by decide))]

theorem digitsValue_zeros_append (n : Nat) (cs : List Char) :
    Text.digitsValue (List.replicate n '0' ++ cs) = Text.digitsValue cs := by
  induction n with
  | zero =>
    rfl
  | succ n ih =>
    rw [List.replicate_succ, List.cons_append]
    exact ih

theorem digitsValue_append_zeros (cs : List Char) (n : Nat) :
    Text.digitsValue (cs ++ List.replicate n '0') = Text.digitsValue cs * 10 ^ n := by
  induction n with
  | zero =>
    simp
  | succ n ih =>
    rw [List.replicate_succ', ← List.append_assoc, Text.digitsValue, List.foldl_concat]
    change 10 * Text.digitsValue (cs ++ List.replicate n '0') + 0 = _
    rw [ih, Nat.add_zero, Nat.pow_succ, Nat.mul_comm, Nat.mul_assoc]

theorem parse_point {whole frac : List Char} (hne : whole ≠ [])
    (hwhole : ∀ c ∈ whole, Text.isDigit c = true) (hfrac : ∀ c ∈ frac, Text.isDigit c = true) :
    parse (String.ofList (whole ++ '.' :: frac)) =
      some (round false (scale 10 (Text.digitsValue (whole ++ frac)) 1 (-(frac.length : Int))).1
        (scale 10 (Text.digitsValue (whole ++ frac)) 1 (-(frac.length : Int))).2) := by
  obtain ⟨c, cs, rfl⟩ := List.exists_cons_of_ne_nil hne
  rw [List.cons_append, parse_of_digit (hwhole c List.mem_cons_self), ← List.cons_append]
  have htake : ((c :: cs) ++ '.' :: frac).takeWhile Text.isDigit = c :: cs := by
    rw [List.takeWhile_append_of_pos hwhole, List.takeWhile_cons_of_neg (by decide),
      List.append_nil]
  have hdrop : ((c :: cs) ++ '.' :: frac).dropWhile Text.isDigit = '.' :: frac := by
    rw [List.dropWhile_append_of_pos hwhole, List.dropWhile_cons_of_neg (by decide)]
  have hfracTake : frac.takeWhile Text.isDigit = frac := List.takeWhile_eq_self_iff.mpr hfrac
  have hfracDrop : frac.dropWhile Text.isDigit = [] := List.dropWhile_eq_nil_iff.mpr hfrac
  unfold parseNumber
  simp only [htake, hdrop, hfracTake, hfracDrop]
  simp [parseExponent]

theorem parse_integer {whole : List Char} (hne : whole ≠ [])
    (hwhole : ∀ c ∈ whole, Text.isDigit c = true) :
    parse (String.ofList whole) = some (round false (Text.digitsValue whole) 1) := by
  obtain ⟨c, cs, rfl⟩ := List.exists_cons_of_ne_nil hne
  rw [parse_of_digit (hwhole c List.mem_cons_self)]
  have htake : (c :: cs).takeWhile Text.isDigit = c :: cs := List.takeWhile_eq_self_iff.mpr hwhole
  have hdrop : (c :: cs).dropWhile Text.isDigit = [] := List.dropWhile_eq_nil_iff.mpr hwhole
  unfold parseNumber
  simp only [htake, hdrop]
  simp [parseExponent, scale]

/-- **Decimal texts.**  What is written without an exponent is read as the
double nearest to it. -/
theorem parse_decimalText (d : Nat) (k : Int) :
    parse (decimalText d k) = some (round false (scale 10 d 1 k).1 (scale 10 d 1 k).2) := by
  have hdigits : ∀ c ∈ (toString d).toList, Text.isDigit c = true :=
    fun c hc => Text.isDigit_of_mem_toString hc
  have hzeros : ∀ n, ∀ c ∈ List.replicate n '0', Text.isDigit c = true := by
    intro n c hc
    rw [List.eq_of_mem_replicate hc]
    rfl
  unfold decimalText
  dsimp only
  split_ifs with hk
  · rw [parse_integer (by simp)
      (fun c hc => (List.mem_append.mp hc).elim (hdigits c) (hzeros _ c)),
      digitsValue_append_zeros, Text.digitsValue_toString, scale, if_pos hk]
  · generalize hpad : List.replicate ((-k).toNat + 1 - (toString d).toList.length) '0' ++
      (toString d).toList = padded
    have hlength : (-k).toNat < padded.length := by
      rw [← hpad, List.length_append, List.length_replicate]
      omega
    have hall : ∀ c ∈ padded, Text.isDigit c = true := by
      rw [← hpad]
      exact fun c hc => (List.mem_append.mp hc).elim (hzeros _ c) (hdigits c)
    have hvalue : Text.digitsValue padded = d := by
      rw [← hpad, digitsValue_zeros_append, Text.digitsValue_toString]
    have hfrac : (padded.drop (padded.length - (-k).toNat)).length = (-k).toNat := by
      rw [List.length_drop]
      omega
    rw [parse_point _ (fun c hc => hall c (List.mem_of_mem_take hc))
      (fun c hc => hall c (List.mem_of_mem_drop hc)), List.take_append_drop, hvalue, hfrac]
    · have hplaces : -((-k).toNat : Int) = k := by omega
      rw [hplaces]
    · intro hnil
      have := congrArg List.length hnil
      simp at this
      omega

/-- The decimal that is printed rounds to the number, unless no short one did. -/
theorem shortest_spec (mant : Nat) (exp : Int) (fuel digits : Nat) :
    let dk := shortest mant exp fuel digits
    round false (scale 10 dk.1 1 dk.2).1 (scale 10 dk.1 1 dk.2).2 = .fin false mant exp ∨
      dk = (mant, exp) := by
  induction fuel generalizing digits with
  | zero =>
    exact Or.inr rfl
  | succ fuel ih =>
    unfold shortest
    dsimp only
    split_ifs with hround
    · exact Or.inl hround
    · exact ih (digits + 1)

/-- **Printed and read back.**  A positive number that is not too small is read
back as a number above zero. -/
theorem parse_display_positive {x : Binary64} {c : Nat} (hx : x.Positive c) (hc : c ≤ 268) :
    ∃ y, parse (display x) = some y ∧ ∃ c', y.Positive c' := by
  cases x with
  | nan =>
    exact hx.elim
  | inf neg =>
    obtain rfl : neg = false := hx
    exact ⟨.inf false, by decide, 0, rfl⟩
  | fin neg mant exp =>
    obtain ⟨rfl, hmant, hexp⟩ := hx
    simp only [display, if_neg hmant.ne', Bool.false_eq_true, if_false]
    refine ⟨_, parse_decimalText _ _, ?_⟩
    rcases shortest_spec mant exp 17 1 with hround | hfallback
    · rw [hround]
      exact ⟨c, rfl, hmant, hexp⟩
    · rw [hfallback]
      refine ⟨4 * c + 53, round_positive (scale_den_pos (by decide) (by decide) _) ?_ (by omega)⟩
      unfold scale
      split_ifs with hsign
      · exact Nat.mul_pos (Nat.mul_pos hmant (Nat.pow_pos (by decide))) (Nat.pow_pos (by decide))
      · calc 1 * 10 ^ (-exp).toNat ≤ 1 * 16 ^ c := by
              refine Nat.mul_le_mul_left 1 
                ((Nat.pow_le_pow_left (show 10 ≤ 16 by decide) _).trans ?_)
              exact Nat.pow_le_pow_right (by decide) (by omega)
          _ = 1 * 2 ^ (4 * c) := by rw [Nat.pow_mul]
          _ ≤ mant * 2 ^ (4 * c) := Nat.mul_le_mul_right _ hmant

end Texts

end Binary64

end ArkInfra
