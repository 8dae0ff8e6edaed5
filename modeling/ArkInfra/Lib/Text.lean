import ArkInfra.Lib.Split
import Mathlib.Data.List.Infix
import Mathlib.Data.List.TakeWhile

/-!
# String operations

The string functions of the standard library that the program calls, each
defined on the list of characters.  `parseUnsigned` reads a decimal integer the
way the integer parsers do: one optional plus sign, at least one ASCII digit,
nothing else, and a value below the bound of the type.  `parseUnsignedResult` is
the same with the message of the error.
-/

namespace ArkInfra

namespace Text

def startsWith (s pat : String) : Bool :=
  pat.toList.isPrefixOf s.toList

/-- What follows the pattern, when the string begins with it. -/
def stripPrefix (s pat : String) : Option String :=
  if startsWith s pat then
    some (String.ofList (s.toList.drop pat.toList.length))
  else
    none

def endsWith (s pat : String) : Bool :=
  pat.toList.isSuffixOf s.toList

/-- The pattern occurs somewhere in the string. -/
def contains (s pat : String) : Bool :=
  decide (pat.toList <:+: s.toList)

/-- ASCII upper-case letters become lower case, all else stays. -/
def toAsciiLowercase (s : String) : String :=
  String.ofList (s.toList.map Char.toLower)

def isDigit (c : Char) : Bool :=
  decide ('0' ≤ c) && decide (c ≤ '9')

/-- The number written by a list of decimal digits. -/
def digitsValue (cs : List Char) : Nat :=
  cs.foldl (fun n c => 10 * n + (c.toNat - '0'.toNat)) 0

/-- Parse an unsigned decimal integer below `bound`. -/
def parseUnsigned (bound : Nat) (s : String) : Option Nat :=
  let digits :=
    match s.toList with
    | '+' :: rest => rest
    | cs => cs
  if digits ≠ [] ∧ digits.all isDigit = true ∧ digitsValue digits < bound then
    some (digitsValue digits)
  else
    none

/-- Read the remaining digits of a number that begins with `n`. -/
def parseDigits (bound : Nat) : Nat → List Char → Except String Nat
  | n, [] => .ok n
  | n, c :: cs =>
    if isDigit c = false then .error "invalid digit found in string"
    else if 10 * n + (c.toNat - '0'.toNat) < bound then
      parseDigits bound (10 * n + (c.toNat - '0'.toNat)) cs
    else .error "number too large to fit in target type"

/-- Parse an unsigned decimal integer below `bound`, with the message of the
error. -/
def parseUnsignedResult (bound : Nat) (s : String) : Except String Nat :=
  match s.toList with
  | [] => .error "cannot parse integer from empty string"
  | ['+'] => .error "invalid digit found in string"
  | '+' :: rest => parseDigits bound 0 rest
  | cs => parseDigits bound 0 cs

/-- The characters with the Unicode property `White_Space`. -/
def isWhitespace (c : Char) : Bool :=
  let n := c.toNat
  (decide (9 ≤ n) && decide (n ≤ 13)) || n == 0x20 || n == 0x85 || n == 0xA0 ||
    n == 0x1680 || (decide (0x2000 ≤ n) && decide (n ≤ 0x200A)) || n == 0x2028 ||
    n == 0x2029 || n == 0x202F || n == 0x205F || n == 0x3000

def trim (s : String) : String :=
  String.ofList
    (((s.toList.dropWhile isWhitespace).reverse.dropWhile isWhitespace).reverse)

/-- The pieces of the string between the occurrences of the separator. -/
def split (s sep : String) : List String :=
  (Split.pieces sep.toList 0 s.toList).map String.ofList

def splitWhitespace (s : String) : List String :=
  (Split.words isWhitespace s.toList).map String.ofList

theorem startsWith_iff (s pat : String) :
    startsWith s pat = true ↔ pat.toList <+: s.toList := by
  simp [startsWith]

theorem map_toList_split (s sep : String) :
    (split s sep).map String.toList = Split.pieces sep.toList 0 s.toList := by
  simp [split, Function.comp_def]

theorem stripPrefix_eq_some_iff {s pat rest : String} :
    stripPrefix s pat = some rest ↔ s = pat ++ rest := by
  unfold stripPrefix
  constructor
  · intro h
    split_ifs at h with hstart
    obtain ⟨cs, hcs⟩ := (startsWith_iff s pat).mp hstart
    obtain rfl : String.ofList cs = rest := by simpa [← hcs] using h
    rw [← String.toList_inj]
    simp [hcs]
  · rintro rfl
    simp [startsWith]

theorem isDigit_of_mem_toString {n : Nat} {c : Char} (h : c ∈ (toString n).toList) :
    isDigit c = true := by
  rw [Nat.toString_eq_repr, Nat.toList_repr] at h
  have hdigit := Nat.isDigit_of_mem_toDigits (by decide) (by decide) h
  simpa [isDigit, Char.isDigit, Char.le_def] using hdigit

theorem parseUnsigned_of_digits (bound : Nat) {cs : List Char}
    (hall : ∀ c ∈ cs, isDigit c = true) :
    parseUnsigned bound (String.ofList cs) =
      if cs ≠ [] ∧ digitsValue cs < bound then some (digitsValue cs) else none := by
  unfold parseUnsigned
  rw [String.toList_ofList]
  split
  next rest =>
    -- no digit is a plus sign
    have hplus := hall '+' List.mem_cons_self
    simp [isDigit] at hplus
  next =>
    simp only [List.all_eq_true.mpr hall, true_and]

theorem digitsValue_toString (n : Nat) : digitsValue (toString n).toList = n := by
  change Nat.ofDigitChars 10 (toString n).toList 0 = n
  rw [Nat.toString_eq_repr, Nat.toList_repr]
  exact Nat.ofDigitChars_toDigits (by decide) (by decide)

theorem toString_ne_nil (n : Nat) : (toString n).toList ≠ [] := by
  rw [Nat.toString_eq_repr, Nat.toList_repr]
  exact Nat.toDigits_ne_nil

theorem parseUnsigned_toString {bound n : Nat} (h : n < bound) :
    parseUnsigned bound (toString n) = some n := by
  have hread := parseUnsigned_of_digits bound
    (fun c (hc : c ∈ (toString n).toList) => isDigit_of_mem_toString hc)
  rw [String.ofList_toList, digitsValue_toString, if_pos ⟨toString_ne_nil n, h⟩] at hread
  exact hread

theorem lt_of_parseUnsigned {bound n : Nat} {s : String} (h : parseUnsigned bound s = some n) :
    n < bound := by
  unfold parseUnsigned at h
  dsimp only at h
  split_ifs at h with hdigits
  obtain rfl := Option.some.inj h
  exact hdigits.2.2

theorem mem_of_parseUnsigned {bound n : Nat} {s : String} (h : parseUnsigned bound s = some n)
    {c : Char} (hc : c ∈ s.toList) : c = '+' ∨ isDigit c = true := by
  unfold parseUnsigned at h
  dsimp only at h
  split_ifs at h with hdigits
  have hall := List.all_eq_true.mp hdigits.2.1
  split at hall
  next rest hplus =>
    rw [hplus] at hc
    exact (List.mem_cons.mp hc).imp id (hall c)
  next =>
    exact Or.inr (hall c hc)

theorem parseDigits_eq_ok_iff {bound n k : Nat} {cs : List Char} (hn : n < bound) :
    parseDigits bound n cs = .ok k ↔
      cs.all isDigit = true ∧
        cs.foldl (fun n c => 10 * n + (c.toNat - '0'.toNat)) n = k ∧ k < bound := by
  induction cs generalizing n with
  | nil =>
    constructor
    · intro h
      obtain rfl := Except.ok.inj h
      exact ⟨rfl, rfl, hn⟩
    · rintro ⟨_, rfl, _⟩
      rfl
  | cons c cs ih =>
    rw [parseDigits, List.all_cons, List.foldl_cons]
    split_ifs with hdigit hnext
    · simp [hdigit]
    · rw [ih hnext]
      simp [hdigit]
    · -- the value only grows, so it stays out of range
      have hgrows : ∀ (cs : List Char) (m : Nat),
          m ≤ cs.foldl (fun n c => 10 * n + (c.toNat - '0'.toNat)) m := by
        intro cs
        induction cs with
        | nil =>
          intro m
          exact Nat.le_refl m
        | cons d cs ihd =>
          intro m
          have hstep : m ≤ 10 * m + (d.toNat - '0'.toNat) := by
            omega
          exact Nat.le_trans hstep (ihd _)
      have hbig := hgrows cs (10 * n + (c.toNat - '0'.toNat))
      constructor
      · intro h
        cases h
      · rintro ⟨_, rfl, hlt⟩
        exact absurd (Nat.lt_of_le_of_lt hbig hlt) hnext

theorem parseUnsignedResult_eq_ok_iff {bound n : Nat} (hbound : 0 < bound) {s : String} :
    parseUnsignedResult bound s = .ok n ↔ parseUnsigned bound s = some n := by
  have hdigits : ∀ cs : List Char, cs ≠ [] →
      (parseDigits bound 0 cs = .ok n ↔
        (if cs ≠ [] ∧ cs.all isDigit = true ∧ digitsValue cs < bound then some (digitsValue cs)
          else none) = some n) := by
    intro cs hne
    rw [parseDigits_eq_ok_iff hbound]
    change _ ∧ digitsValue cs = n ∧ n < bound ↔ _
    constructor
    · rintro ⟨hall, rfl, hlt⟩
      rw [if_pos ⟨hne, hall, hlt⟩]
    · intro h
      split_ifs at h with hcond
      obtain rfl := Option.some.inj h
      exact ⟨hcond.2.1, rfl, hcond.2.2⟩
  unfold parseUnsignedResult parseUnsigned
  dsimp only
  split
  next hnil =>
    simp [hnil]
  next hplus =>
    simp [hplus]
  next rest hnotEmpty hplus =>
    rw [hplus]
    exact hdigits rest hnotEmpty
  next cs hne hnotPlus hnotSigned =>
    split
    next rest hplus =>
      exact absurd hplus (hnotSigned rest)
    next =>
      exact hdigits s.toList hne

theorem trim_ne_empty {s : String} {c : Char} (hc : c ∈ s.toList)
    (hchar : isWhitespace c = false) : trim s ≠ "" := by
  intro htrim
  have hnil : (s.toList.dropWhile isWhitespace).reverse.dropWhile isWhitespace = [] := by
    have hlist := congrArg String.toList htrim
    simpa [trim] using hlist
  have hdropped : ∀ c ∈ s.toList.dropWhile isWhitespace, isWhitespace c = true := by
    intro c hc
    exact List.dropWhile_eq_nil_iff.mp hnil c (List.mem_reverse.mpr hc)
  rw [← List.takeWhile_append_dropWhile (p := isWhitespace) (l := s.toList)] at hc
  rcases List.mem_append.mp hc with hc | hc
  · rw [List.mem_takeWhile_imp hc] at hchar
    cases hchar
  · rw [hdropped c hc] at hchar
    cases hchar

theorem exists_trim (s : String) :
    ∃ before after, s.toList = before ++ (trim s).toList ++ after ∧
      (∀ c ∈ before, isWhitespace c = true) ∧ ∀ c ∈ after, isWhitespace c = true := by
  let front := s.toList.takeWhile isWhitespace
  let rest := s.toList.dropWhile isWhitespace
  have hfront : s.toList = front ++ rest := List.takeWhile_append_dropWhile.symm
  have hback : rest.reverse =
      rest.reverse.takeWhile isWhitespace ++ rest.reverse.dropWhile isWhitespace :=
    List.takeWhile_append_dropWhile.symm
  refine ⟨front, (rest.reverse.takeWhile isWhitespace).reverse, ?_, ?_, ?_⟩
  · have hrest := congrArg List.reverse hback
    rw [List.reverse_reverse, List.reverse_append] at hrest
    rw [trim, String.toList_ofList, List.append_assoc, ← hrest]
    exact hfront
  · intro c hc
    exact List.mem_takeWhile_imp hc
  · intro c hc
    exact List.mem_takeWhile_imp (List.mem_reverse.mp hc)

/-- A string that neither begins nor ends with white space is its own trim. -/
theorem trim_eq_self {s : String} {a b : Char}
    (hhead : s.toList.head? = some a) (hlast : s.toList.getLast? = some b)
    (ha : isWhitespace a = false) (hb : isWhitespace b = false) :
    trim s = s := by
  have hfront : s.toList.dropWhile isWhitespace = s.toList := by
    cases hs : s.toList with
    | nil =>
      rfl
    | cons c cs =>
      rw [hs] at hhead
      obtain rfl : c = a := by simpa using hhead
      simp [ha]
  have hback : s.toList.reverse.dropWhile isWhitespace = s.toList.reverse := by
    have hrev : s.toList.reverse.head? = some b := by
      rw [List.head?_reverse]
      exact hlast
    cases hs : s.toList.reverse with
    | nil =>
      rfl
    | cons c cs =>
      rw [hs] at hrev
      obtain rfl : c = b := by simpa using hrev
      simp [hb]
  unfold trim
  rw [hfront, hback, List.reverse_reverse]
  exact String.ofList_toList

theorem notMem_intercalate {c : Char} {sep : String} (hsep : c ∉ sep.toList) {l : List String}
    (hl : ∀ s ∈ l, c ∉ s.toList) : c ∉ (sep.intercalate l).toList := by
  induction l with
  | nil =>
    simp
  | cons s l ih =>
    obtain ⟨hs, hrest⟩ := List.forall_mem_cons.mp hl
    by_cases hnil : l = []
    · rw [hnil, String.intercalate_singleton]
      exact hs
    · simp only [String.intercalate_cons_of_ne_nil hnil, String.toList_append, List.mem_append,
        not_or]
      exact ⟨⟨hs, hsep⟩, ih hrest⟩

/-- Pieces that are free of the separator can be told apart in the joined string. -/
theorem intercalate_injective {sep : String} {c : Char} (hsep : sep.toList = [c])
    {l l' : List String} (hl : ∀ s ∈ l, c ∉ s.toList) (hl' : ∀ s ∈ l', c ∉ s.toList)
    (hne : l ≠ []) (hne' : l' ≠ []) (h : sep.intercalate l = sep.intercalate l') : l = l' := by
  have hsplit : ∀ {l : List String}, (∀ s ∈ l, c ∉ s.toList) → l ≠ [] →
      (sep.intercalate l).toList.splitOn c = l.map String.toList := by
    intro l hl hne
    rw [String.toList_intercalate, hsep, List.splitOn_intercalate]
    · simpa using hl
    · simpa using hne
  apply List.map_injective_iff.mpr fun _ _ => String.toList_inj.mp
  rw [← hsplit hl hne, h, hsplit hl' hne']

theorem append_sep_injective {sep : String} {c : Char} (hsep : sep.toList = [c])
    {s s' t t' : String} (hs : c ∉ s.toList) (hs' : c ∉ s'.toList)
    (h : s ++ sep ++ t = s' ++ sep ++ t') : s = s' ∧ t = t' := by
  have htake : ∀ {s t : String}, c ∉ s.toList →
      (s ++ sep ++ t).toList.takeWhile (fun d => decide (d ≠ c)) = s.toList := by
    intro s t hs
    rw [String.toList_append, String.toList_append, hsep, List.append_assoc,
      List.takeWhile_append_of_pos]
    · simp
    · intro d hd
      have hne : d ≠ c := fun heq => hs (heq ▸ hd)
      simpa using hne
  have hsame : s = s' := by
    rw [← String.toList_inj, ← htake (t := t) hs, h, htake hs']
  refine ⟨hsame, ?_⟩
  rw [hsame] at h
  exact (String.append_right_inj _).mp h

theorem trim_append {s t : String} {a b : Char}
    (hhead : s.toList.head? = some a) (hlast : s.toList.getLast? = some b)
    (ha : isWhitespace a = false) (hb : isWhitespace b = false)
    (ht : ∀ c ∈ t.toList, isWhitespace c = true) : trim (s ++ t) = s := by
  have hself := trim_eq_self hhead hlast ha hb
  obtain ⟨cs, hcs⟩ : ∃ cs, s.toList = a :: cs := List.head?_eq_some_iff.mp hhead
  unfold trim at hself ⊢
  rw [String.toList_append, hcs, List.cons_append, List.dropWhile_cons_of_neg (by simp [ha])]
  rw [hcs, List.dropWhile_cons_of_neg (by simp [ha])] at hself
  rw [← List.cons_append, List.reverse_append,
    List.dropWhile_append_of_pos fun c hc => ht c (List.mem_reverse.mp hc)]
  exact hself

end Text

end ArkInfra
