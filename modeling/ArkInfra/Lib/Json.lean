import Mathlib.Data.List.Basic
import Mathlib.Tactic.SplitIfs

/-!
# Values and literals of JSON

The values a program builds and takes apart, with the rules by which a record
is read from a value (`recordFields`), and the literals of the compact form:
strings and natural numbers as a compact JSON writer prints them, with readers
that take a literal off the front of the input and return the rest.  A string
escapes the quote, the backslash and the control characters, in the short form
where JSON has one.  Reading a literal that was written gives it back, whatever
follows it (`stringLit_write`, `number_write`).
-/

namespace ArkInfra

namespace Json

/-- A JSON value.  The numbers are unsigned integers. -/
inductive Value where
  | null
  | bool (b : Bool)
  | number (n : Nat)
  | string (s : String)
  | array (items : List Value)
  | object (fields : List (String × Value))

namespace Value

def get (key : String) : Value → Option Value
  | object fields => fields.lookup key
  | _ => none

def asStr : Value → Option String
  | string s => some s
  | _ => none

def asU64 : Value → Option Nat
  | number n => some n
  | _ => none

def asBool : Value → Option Bool
  | bool b => some b
  | _ => none

def asArray : Value → Option (List Value)
  | array items => some items
  | _ => none

/-- Merge the fields of a patch into an object; any other value is replaced by
the patch. -/
def merge (patch : List (String × Value)) : Value → Value
  | object fields =>
    object (patch ++ fields.filter fun field => decide (field.1 ∉ patch.map Prod.fst))
  | _ => object patch

theorem get_merge_head (key : String) (v : Value) (patch : List (String × Value)) (old : Value) :
    (old.merge ((key, v) :: patch)).get key = some v := by
  cases old with
  | object fields =>
    exact List.lookup_cons_self
  | null | bool b | number n | string t | array items =>
    exact List.lookup_cons_self

end Value

section Records

variable {α : Type}

/-- The value of a field of a record, if it is there; a field that is there
twice is an error. -/
def fieldOf (fields : List (String × Value)) (name : String) : Option (Option Value) :=
  match fields.filter fun field => decide (field.1 = name) with
  | [] => some none
  | [field] => some (some field.2)
  | _ => none

/-- The fields of a record by name.  A record is an object, whose other fields
are ignored, or the array of all its fields in order. -/
def recordFields (names : List String) : Value → Option (List (Option Value))
  | .object fields => names.mapM (fieldOf fields)
  | .array items => if items.length = names.length then some (items.map some) else none
  | _ => none

def required (read : Value → Option α) : Option Value → Option α
  | none => none
  | some v => read v

def orDefault (default : α) (read : Value → Option α) : Option Value → Option α
  | none => some default
  | some v => read v

/-- A field that may be missing or `null`. -/
def optionally (read : Value → Option α) : Option Value → Option (Option α)
  | none => some none
  | some .null => some none
  | some v => (read v).map some

/-- A value, or `null`. -/
def ofOption (write : α → Value) : Option α → Value
  | none => .null
  | some a => write a

def unsigned (bound : Nat) (v : Value) : Option Nat :=
  v.asU64.filter fun n => decide (n < bound)

theorem unsigned_number {bound n : Nat} (h : n < bound) :
    unsigned bound (.number n) = some n := by
  simp [unsigned, Value.asU64, h]

def stringList : Value → Option (List String)
  | .array items => items.mapM Value.asStr
  | _ => none

theorem optionally_ofOption {read : Value → Option α} {write : α → Value} {o : Option α}
    (hnull : ∀ a, write a ≠ .null) (hread : ∀ a ∈ o, read (write a) = some a) :
    optionally read (some (ofOption write o)) = some o := by
  cases o with
  | none =>
    rfl
  | some a =>
    have ha := hread a rfl
    cases hw : write a with
    | null =>
      exact absurd hw (hnull a)
    | bool b | number n | string t | array items | object fields =>
      rw [hw] at ha
      simp [ofOption, optionally, hw, ha]

end Records

def quote : Char := '\x22'

def backslash : Char := '\x5c'

/-- The characters with a short escape, with the letter that stands for them. -/
def shortEscapes : List (Char × Char) :=
  [(quote, quote), (backslash, backslash), ('\x08', 'b'), ('\t', 't'), ('\n', 'n'),
    ('\x0c', 'f'), ('\r', 'r')]

def escapeChar (c : Char) : List Char :=
  match shortEscapes.lookup c with
  | some letter => [backslash, letter]
  | none =>
    if c.toNat < 32 then
      [backslash, 'u', '0', '0', (c.toNat / 16).digitChar, (c.toNat % 16).digitChar]
    else
      [c]

/-- The body of a string literal with its closing quote. -/
def writeBody (s : List Char) : List Char :=
  s.flatMap escapeChar ++ [quote]

def writeString (s : String) : List Char :=
  quote :: writeBody s.toList

def writeNat (n : Nat) : List Char :=
  Nat.toDigits 10 n

def hexValue (c : Char) : Option Nat :=
  (List.range 16).find? fun n => n.digitChar == c

def unescape (letter : Char) : Option Char :=
  (shortEscapes.find? fun e => e.2 == letter).map fun e => e.1

/-- Where the reader of a string body stands: between characters, after a
backslash, or inside the four digits of a code. -/
inductive Mode where
  | plain
  | escape
  | unicode (count code : Nat)

def push (c : Char) (r : Option (List Char × List Char)) : Option (List Char × List Char) :=
  r.map fun r => (c :: r.1, r.2)

/-- Read the body of a string up to its closing quote.  Escaped surrogate pairs
are not read. -/
def readBody : Mode → List Char → Option (List Char × List Char)
  | _, [] => none
  | .plain, c :: cs =>
    if c = quote then some ([], cs)
    else if c = backslash then readBody .escape cs
    else if c.toNat < 32 then none
    else push c (readBody .plain cs)
  | .escape, c :: cs =>
    if c = 'u' then readBody (.unicode 0 0) cs
    else
      match unescape c with
      | some x => push x (readBody .plain cs)
      | none => none
  | .unicode count code, c :: cs =>
    match hexValue c with
    | none => none
    | some d =>
      if count < 3 then readBody (.unicode (count + 1) (code * 16 + d)) cs
      else if (code * 16 + d).isValidChar then
        push (Char.ofNat (code * 16 + d)) (readBody .plain cs)
      else none

def literal (text : List Char) (cs : List Char) : Option (List Char) :=
  if text <+: cs then some (cs.drop text.length) else none

def stringLit (cs : List Char) : Option (String × List Char) := do
  let cs ← literal [quote] cs
  let (s, rest) ← readBody .plain cs
  some (String.ofList s, rest)

def number (cs : List Char) : Option (Nat × List Char) :=
  let digits := cs.takeWhile Char.isDigit
  if digits = [] then none
  else some (Nat.ofDigitChars 10 digits 0, cs.dropWhile Char.isDigit)

/-- A value or `null`. -/
def nullable {α : Type} (read : List Char → Option (α × List Char)) (cs : List Char) :
    Option (Option α × List Char) :=
  match literal ['n', 'u', 'l', 'l'] cs with
  | some rest => some (none, rest)
  | none => (read cs).map fun r => (some r.1, r.2)

def writeNullable {α : Type} (write : α → List Char) : Option α → List Char
  | none => ['n', 'u', 'l', 'l']
  | some a => write a

@[simp] theorem literal_append (text rest : List Char) :
    literal text (text ++ rest) = some rest := by
  simp [literal]

theorem hexValue_digitChar : ∀ n < 16, hexValue n.digitChar = some n := by
  decide

theorem unescape_of_mem : ∀ e ∈ shortEscapes, e.2 ≠ 'u' ∧ unescape e.2 = some e.1 := by
  decide

theorem mem_shortEscapes_of_lookup {c letter : Char}
    (h : shortEscapes.lookup c = some letter) : (c, letter) ∈ shortEscapes := by
  obtain ⟨l₁, l₂, hsplit, _⟩ := List.lookup_eq_some_iff.mp h
  rw [hsplit]
  simp

/-- A character without short escape is neither the quote nor the backslash. -/
theorem ne_of_lookup_eq_none {c : Char} (h : shortEscapes.lookup c = none) :
    c ≠ quote ∧ c ≠ backslash := by
  constructor
  · rintro rfl
    simp [shortEscapes] at h
  · rintro rfl
    revert h
    decide

theorem readBody_escapeChar (c : Char) (cs : List Char) :
    readBody .plain (escapeChar c ++ cs) = push c (readBody .plain cs) := by
  have hq : backslash ≠ quote := by
    decide
  unfold escapeChar
  cases hshort : shortEscapes.lookup c with
  | some letter =>
    have hmem := mem_shortEscapes_of_lookup hshort
    obtain ⟨hu, hunescape⟩ := unescape_of_mem _ hmem
    simp only [List.cons_append, List.nil_append, readBody, if_neg hq, if_neg hu,
      if_true, hunescape]
  | none =>
    obtain ⟨hquote, hbackslash⟩ := ne_of_lookup_eq_none hshort
    by_cases hctrl : c.toNat < 32
    · have hzero : hexValue '0' = some 0 := by
        decide
      have hhigh := hexValue_digitChar (c.toNat / 16) (by omega)
      have hlow := hexValue_digitChar (c.toNat % 16) (by omega)
      have hcode : c.toNat / 16 * 16 + c.toNat % 16 = c.toNat := by
        omega
      have hvalid : c.toNat.isValidChar := c.valid
      simp only [if_pos hctrl, List.cons_append, List.nil_append, readBody, if_neg hq,
        if_true, hzero, hhigh, hlow, Nat.zero_mul, Nat.zero_add, hcode]
      simp [hvalid]
    · simp only [if_neg hctrl, List.cons_append, List.nil_append, readBody, if_neg hquote,
        if_neg hbackslash]

theorem readBody_write (s rest : List Char) :
    readBody .plain (writeBody s ++ rest) = some (s, rest) := by
  unfold writeBody
  induction s with
  | nil =>
    rfl
  | cons c s ih =>
    rw [List.flatMap_cons, List.append_assoc, List.append_assoc, readBody_escapeChar,
      ← List.append_assoc, ih]
    rfl

/-- **Strings are read back as they were written.** -/
theorem stringLit_write (s : String) (rest : List Char) :
    stringLit (writeString s ++ rest) = some (s, rest) := by
  have hquote : literal [quote] (writeString s ++ rest) = some (writeBody s.toList ++ rest) :=
    literal_append [quote] _
  simp [stringLit, hquote, readBody_write]

/-- **Numbers are read back as they were written**, unless a digit follows. -/
theorem number_write (n : Nat) {rest : List Char}
    (h : ∀ c ∈ rest.head?, c.isDigit = false) :
    number (writeNat n ++ rest) = some (n, rest) := by
  have hdigits : ∀ c ∈ writeNat n, c.isDigit = true := by
    intro c hc
    exact Nat.isDigit_of_mem_toDigits (by decide) (by decide) hc
  have htake : (writeNat n ++ rest).takeWhile Char.isDigit = writeNat n := by
    rw [List.takeWhile_append_of_pos hdigits]
    cases rest with
    | nil =>
      simp
    | cons c rest =>
      simp [h c rfl]
  have hdrop : (writeNat n ++ rest).dropWhile Char.isDigit = rest := by
    rw [List.dropWhile_append_of_pos hdigits]
    cases rest with
    | nil =>
      rfl
    | cons c rest =>
      simp [h c rfl]
  unfold number
  rw [htake, hdrop]
  simp [writeNat, Nat.toDigits_ne_nil]

/-- A nullable value is read back when its text does not begin like `null`. -/
theorem nullable_write {α : Type} {read : List Char → Option (α × List Char)}
    {write : α → List Char} {rest : List Char}
    (hread : ∀ a, read (write a ++ rest) = some (a, rest))
    (hnull : ∀ a, (write a).head? ≠ none ∧ (write a).head? ≠ some 'n') (o : Option α) :
    nullable read (writeNullable write o ++ rest) = some (o, rest) := by
  cases o with
  | none =>
    unfold nullable writeNullable
    rw [literal_append]
  | some a =>
    have hlit : literal ['n', 'u', 'l', 'l'] (write a ++ rest) = none := by
      obtain ⟨hne, hn⟩ := hnull a
      unfold literal
      rw [if_neg]
      rintro ⟨t, ht⟩
      cases hw : write a with
      | nil =>
        simp [hw] at hne
      | cons c cs =>
        rw [hw] at ht hn
        simp only [List.cons_append, List.cons.injEq] at ht
        simp [← ht.1] at hn
    simp [nullable, writeNullable, hlit, hread]

theorem newline_notMem_escapeChar (c : Char) : '\n' ∉ escapeChar c := by
  have hletters : ∀ e ∈ shortEscapes, '\n' ≠ e.2 := by
    decide
  have hdigits : ∀ n < 16, '\n' ≠ Nat.digitChar n := by
    decide
  have hb : '\n' ≠ backslash := by
    decide
  unfold escapeChar
  cases hshort : shortEscapes.lookup c with
  | some letter =>
    have hmem := mem_shortEscapes_of_lookup hshort
    simp [hb, hletters _ hmem]
  | none =>
    by_cases hctrl : c.toNat < 32
    · have hhigh := hdigits (c.toNat / 16) (by omega)
      have hlow := hdigits (c.toNat % 16) (by omega)
      simp [hctrl, hb, hhigh, hlow]
    · simp only [if_neg hctrl, List.mem_singleton]
      rintro rfl
      exact hctrl (by decide)

theorem newline_notMem_writeString (s : String) : '\n' ∉ writeString s := by
  have hq : '\n' ≠ quote := by
    decide
  simp only [writeString, writeBody, List.mem_cons, List.mem_append, List.mem_flatMap,
    List.not_mem_nil, or_false, not_or]
  refine ⟨hq, ?_, hq⟩
  rintro ⟨c, _, hc⟩
  exact newline_notMem_escapeChar c hc

theorem newline_notMem_writeNat (n : Nat) : '\n' ∉ writeNat n := by
  intro hmem
  have := Nat.isDigit_of_mem_toDigits (by decide) (by decide) hmem
  revert this
  decide

end Json

end ArkInfra
