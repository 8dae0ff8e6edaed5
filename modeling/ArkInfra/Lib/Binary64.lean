import ArkInfra.Lib.Text
import Mathlib.Algebra.Group.Nat.Defs
import Mathlib.Data.Int.Basic
import Mathlib.Data.Nat.Log

/-!
# Floating-point numbers

`FloatArith` lists the floating-point operations a program may use.  Code that
computes with floating-point numbers is written over an arbitrary instance, so
that a result about it holds under every rounding.

`Binary64` is the instance the machine has: signed zeros, infinities, one NaN,
and finite values `± mant · 2 ^ exp` with at most 53 bits, every operation
rounding the exact result to nearest, ties to even.  Parsing follows the
grammar of the standard library, and printing gives the shortest decimal that
reads back as the same number, without an exponent.
-/

namespace ArkInfra

class FloatArith (F : Type) where
  /-- Parse a decimal text. -/
  parse : String → Option F
  /-- The ordered comparison `a < b`, false on NaN. -/
  lt : F → F → Bool
  add : F → F → F
  div : F → F → F
  /-- Conversion of an unsigned integer. -/
  ofNat : Nat → F
  /-- Minus zero, which leaves the other summand of an addition as it is. -/
  negZero : F
  /-- The text printed for a value. -/
  display : F → String

/-- The sum of a list, which starts from minus zero. -/
def FloatArith.sum {F : Type} [FloatArith F] (xs : List F) : F :=
  xs.foldl FloatArith.add FloatArith.negZero

/-- The further operations of code that compares floating-point numbers. -/
class FloatCompare (F : Type) extends FloatArith F where
  /-- The ordered comparison `a ≤ b`, false on NaN. -/
  le : F → F → Bool
  sub : F → F → F
  abs : F → F

/-- The further operations of code that scales floating-point numbers and prints
them with a fixed number of decimals. -/
class FloatFormat (F : Type) extends FloatArith F where
  mul : F → F → F
  fixed : (places : Nat) → F → String

inductive Binary64 where
  | nan
  | inf (neg : Bool)
  | fin (neg : Bool) (mant : Nat) (exp : Int)
deriving DecidableEq, Repr

namespace Binary64

/-- The integer quotient rounded to nearest, ties to even. -/
def divNearest (num den : Nat) : Nat :=
  let q := num / den
  let r := num % den
  if 2 * r < den then q
  else if den < 2 * r then q + 1
  else if q % 2 = 0 then q
  else q + 1

/-- `num / den · base ^ e` as a pair of integers. -/
def scale (base num den : Nat) (e : Int) : Nat × Nat :=
  if 0 ≤ e then (num * base ^ e.toNat, den) else (num, den * base ^ (-e).toNat)

/-- The largest `k` with `base ^ k ≤ num / den`, for a positive fraction. -/
def floorLog (base num den : Nat) : Int :=
  let k : Int := (Nat.log base num : Int) - (Nat.log base den : Int)
  let s := scale base num den (-k)
  if s.2 ≤ s.1 then k else k - 1

/-- The double nearest to `± num / den`. -/
def round (neg : Bool) (num den : Nat) : Binary64 :=
  if num = 0 then .fin neg 0 (-1074)
  else
    let e := max (floorLog 2 num den - 52) (-1074)
    let s := scale 2 num den (-e)
    let m := divNearest s.1 s.2
    -- rounding up to the next power of two gives a 54-bit mantissa
    let me := if m = 2 ^ 53 then (2 ^ 52, e + 1) else (m, e)
    if 971 < me.2 then .inf neg else .fin neg me.1 me.2

/-- The magnitude of a finite value as a fraction. -/
def fraction (mant : Nat) (exp : Int) : Nat × Nat :=
  scale 2 mant 1 exp

/-- The sign of a finite value that compares as a number: zero has none. -/
def isNeg (neg : Bool) (mant : Nat) : Bool :=
  neg && decide (mant ≠ 0)

/-- `a < b`. -/
def lt : Binary64 → Binary64 → Bool
  | .nan, _ => false
  | _, .nan => false
  | .inf a, .inf b => a && !b
  | .inf a, .fin _ _ _ => a
  | .fin _ _ _, .inf b => !b
  | .fin a m e, .fin b m' e' =>
    let x := fraction m e
    let y := fraction m' e'
    let below := decide (x.1 * y.2 < y.1 * x.2)
    let above := decide (y.1 * x.2 < x.1 * y.2)
    match isNeg a m, isNeg b m' with
    | false, false => below
    | true, true => above
    | true, false => true
    | false, true => false

/-- `a + b`. -/
def add : Binary64 → Binary64 → Binary64
  | .nan, _ => .nan
  | _, .nan => .nan
  | .inf a, .inf b => if a = b then .inf a else .nan
  | .inf a, .fin _ _ _ => .inf a
  | .fin _ _ _, .inf b => .inf b
  | .fin a m e, .fin b m' e' =>
    let x := fraction m e
    let y := fraction m' e'
    let p := x.1 * y.2
    let q := y.1 * x.2
    let d := x.2 * y.2
    if a = b then round a (p + q) d
    else if p = q then .fin false 0 (-1074)
    else if q < p then round a (p - q) d
    else round b (q - p) d

/-- `a / b`. -/
def div : Binary64 → Binary64 → Binary64
  | .nan, _ => .nan
  | _, .nan => .nan
  | .inf _, .inf _ => .nan
  | .inf a, .fin b _ _ => .inf (xor a b)
  | .fin a _ _, .inf b => .fin (xor a b) 0 (-1074)
  | .fin a m e, .fin b m' e' =>
    if m' = 0 then
      if m = 0 then .nan else .inf (xor a b)
    else
      let x := fraction m e
      let y := fraction m' e'
      round (xor a b) (x.1 * y.2) (x.2 * y.1)

/-- `a · b`. -/
def mul : Binary64 → Binary64 → Binary64
  | .nan, _ => .nan
  | _, .nan => .nan
  | .inf a, .inf b => .inf (xor a b)
  | .inf a, .fin b m _ => if m = 0 then .nan else .inf (xor a b)
  | .fin a m _, .inf b => if m = 0 then .nan else .inf (xor a b)
  | .fin a m e, .fin b m' e' =>
    let x := fraction m e
    let y := fraction m' e'
    round (xor a b) (x.1 * y.1) (x.2 * y.2)

/-- `a ≤ b`. -/
def le : Binary64 → Binary64 → Bool
  | .nan, _ => false
  | _, .nan => false
  | a, b => !lt b a

/-- `-a`. -/
def neg : Binary64 → Binary64
  | .nan => .nan
  | .inf a => .inf (!a)
  | .fin a m e => .fin (!a) m e

/-- `|a|`. -/
def abs : Binary64 → Binary64
  | .nan => .nan
  | .inf _ => .inf false
  | .fin _ m e => .fin false m e

def parseExponent : List Char → Option Int
  | [] => some 0
  | c :: rest =>
    if c = 'e' ∨ c = 'E' then
      let signed : Bool × List Char :=
        match rest with
        | '-' :: ds => (true, ds)
        | '+' :: ds => (false, ds)
        | ds => (false, ds)
      if signed.2 ≠ [] ∧ signed.2.all Text.isDigit = true then
        let n : Int := Text.digitsValue signed.2
        some (if signed.1 then -n else n)
      else
        none
    else
      none

/-- The part of a decimal number after its sign. -/
def parseNumber (neg : Bool) (cs : List Char) : Option Binary64 :=
  let whole := cs.takeWhile Text.isDigit
  let tail := cs.dropWhile Text.isDigit
  let split : List Char × List Char :=
    match tail with
    | '.' :: rest => (rest.takeWhile Text.isDigit, rest.dropWhile Text.isDigit)
    | rest => ([], rest)
  if whole = [] ∧ split.1 = [] then none
  else
    (parseExponent split.2).map fun k =>
      let s := scale 10 (Text.digitsValue (whole ++ split.1)) 1 (k - split.1.length)
      round neg s.1 s.2

def parse (s : String) : Option Binary64 :=
  let signed : Bool × List Char :=
    match s.toList with
    | '-' :: rest => (true, rest)
    | '+' :: rest => (false, rest)
    | cs => (false, cs)
  let lower := signed.2.map Char.toLower
  if lower = "inf".toList ∨ lower = "infinity".toList then some (.inf signed.1)
  else if lower = "nan".toList then some .nan
  else parseNumber signed.1 signed.2

/-- The characters that the texts of numbers are made of. -/
def isNumberChar (c : Char) : Bool :=
  Text.isDigit c || decide (c ∈ "+-.eE".toList) || decide (c.toLower ∈ "infinitynan".toList)

theorem isNumberChar_of_isDigit {c : Char} (h : Text.isDigit c = true) :
    isNumberChar c = true := by
  simp [isNumberChar, h]

theorem isNumberChar_of_parseExponent {cs : List Char} {k : Int}
    (h : parseExponent cs = some k) : ∀ c ∈ cs, isNumberChar c = true := by
  have hdigits : ∀ {ds : List Char} {n : Int},
      (if ds ≠ [] ∧ ds.all Text.isDigit = true then some n else none) = some k →
        ∀ c ∈ ds, isNumberChar c = true := by
    intro ds n h c hc
    split_ifs at h with hall
    exact isNumberChar_of_isDigit (List.all_eq_true.mp hall.2 c hc)
  unfold parseExponent at h
  split at h
  · simp
  · rename_i c rest
    split at h
    · rename_i hexp
      have hfirst : isNumberChar c = true := by
        rcases hexp with rfl | rfl <;> decide
      dsimp only at h
      refine List.forall_mem_cons.mpr ⟨hfirst, ?_⟩
      split at h
      · exact List.forall_mem_cons.mpr ⟨by decide, hdigits h⟩
      · exact List.forall_mem_cons.mpr ⟨by decide, hdigits h⟩
      · exact hdigits h
    · cases h

theorem isNumberChar_of_mem_takeWhile {c : Char} {cs : List Char}
    (h : c ∈ cs.takeWhile Text.isDigit) : isNumberChar c = true :=
  isNumberChar_of_isDigit (List.mem_takeWhile_imp h)

theorem isNumberChar_of_parseNumber {neg : Bool} {cs : List Char} {x : Binary64}
    (h : parseNumber neg cs = some x) : ∀ c ∈ cs, isNumberChar c = true := by
  intro c hc
  rw [← List.takeWhile_append_dropWhile (p := Text.isDigit) (l := cs), List.mem_append] at hc
  rcases hc with hwhole | htail
  · exact isNumberChar_of_mem_takeWhile hwhole
  · unfold parseNumber at h
    dsimp only at h
    split_ifs at h
    obtain ⟨k, hk, _⟩ := Option.map_eq_some_iff.mp h
    have hexp := isNumberChar_of_parseExponent hk
    split at hexp
    · rename_i rest hpoint
      rw [hpoint] at htail
      rcases List.mem_cons.mp htail with rfl | hrest
      · decide
      · rw [← List.takeWhile_append_dropWhile (p := Text.isDigit) (l := rest),
          List.mem_append] at hrest
        exact hrest.elim isNumberChar_of_mem_takeWhile (hexp c)
    · exact hexp c htail

theorem isNumberChar_of_word {cs : List Char} {word : String}
    (hword : (word.toList.all fun c => decide (c ∈ "infinitynan".toList)) = true)
    (heq : cs.map Char.toLower = word.toList) : ∀ c ∈ cs, isNumberChar c = true := by
  intro c hc
  have hlower : c.toLower ∈ word.toList := heq ▸ List.mem_map_of_mem hc
  have hmem := of_decide_eq_true (List.all_eq_true.mp hword _ hlower)
  simp only [isNumberChar, hmem, decide_true, Bool.or_true]

/-- **What is read as a number** is made of these characters. -/
theorem isNumberChar_of_parse {s : String} {x : Binary64} (h : parse s = some x) :
    ∀ c ∈ s.toList, isNumberChar c = true := by
  have hbody : ∀ {neg : Bool} {cs : List Char},
      (if cs.map Char.toLower = "inf".toList ∨ cs.map Char.toLower = "infinity".toList then
        some (.inf neg)
      else if cs.map Char.toLower = "nan".toList then some .nan
      else parseNumber neg cs) = some x → ∀ c ∈ cs, isNumberChar c = true := by
    intro neg cs h
    split_ifs at h with hinf hnan
    · rcases hinf with hinf | hinf
      · exact isNumberChar_of_word (by decide) hinf
      · exact isNumberChar_of_word (by decide) hinf
    · exact isNumberChar_of_word (by decide) hnan
    · exact isNumberChar_of_parseNumber h
  unfold parse at h
  dsimp only at h
  split at h
  · rename_i rest hsign
    rw [hsign]
    exact List.forall_mem_cons.mpr ⟨by decide, hbody h⟩
  · rename_i rest hsign
    rw [hsign]
    exact List.forall_mem_cons.mpr ⟨by decide, hbody h⟩
  · exact hbody h

/-- Find the shortest decimal `d · 10 ^ k` that rounds to the given double,
trying the digit counts from `digits` up. -/
def shortest (mant : Nat) (exp : Int) : (fuel digits : Nat) → Nat × Int
  | 0, _ => (mant, exp)
  | fuel + 1, digits =>
    let v := fraction mant exp
    let k := floorLog 10 v.1 v.2 - (digits - 1 : Int)
    let s := scale 10 v.1 v.2 (-k)
    let d := divNearest s.1 s.2
    let back := scale 10 d 1 k
    if round false back.1 back.2 = .fin false mant exp then (d, k)
    else shortest mant exp fuel (digits + 1)

/-- Write `d · 10 ^ k` without an exponent. -/
def decimalText (d : Nat) (k : Int) : String :=
  let digits := (toString d).toList
  if 0 ≤ k then String.ofList (digits ++ List.replicate k.toNat '0')
  else
    let places := (-k).toNat
    let padded := List.replicate (places + 1 - digits.length) '0' ++ digits
    let split := padded.length - places
    String.ofList (padded.take split ++ '.' :: padded.drop split)

def display : Binary64 → String
  | .nan => "NaN"
  | .inf neg => if neg then "-inf" else "inf"
  | .fin neg mant exp =>
    let body :=
      if mant = 0 then "0"
      else
        let dk := shortest mant exp 17 1
        decimalText dk.1 dk.2
    if neg then "-" ++ body else body

/-- The text of a value with a fixed number of decimals, rounded to nearest. -/
def fixed (places : Nat) : Binary64 → String
  | .nan => "NaN"
  | .inf neg => if neg then "-inf" else "inf"
  | .fin neg mant exp =>
    let v := fraction mant exp
    let body := decimalText (divNearest (v.1 * 10 ^ places) v.2) (-(places : Int))
    if neg then "-" ++ body else body

instance : FloatArith Binary64 where
  parse := parse
  lt := lt
  add := add
  div := div
  ofNat := fun n => round false n 1
  negZero := .fin true 0 (-1074)
  display := display

instance : FloatCompare Binary64 where
  le := le
  sub := fun a b => add a (neg b)
  abs := abs

instance : FloatFormat Binary64 where
  mul := mul
  fixed := fixed

/-- The comparison that separates `0.99` from `1` survives the rounding of the
parser, and printing undoes parsing. -/
example :
    ((parse "0.99").map fun x => (lt x (round false 1 1), display x)) =
      some (true, "0.99") := by
  decide +kernel

/-- The decimals are rounded: `96.25` is printed as `96.2`, and `0.1 · 0.2` is
not `0.02`. -/
example :
    (parse "96.25").map (fixed 1) = some "96.2" ∧
    ((parse "0.1").bind fun x => (parse "0.2").map fun y => display (mul x y)) =
      some "0.020000000000000004" := by
  decide +kernel

end Binary64

end ArkInfra
