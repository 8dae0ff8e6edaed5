import ArkInfra.Lib.Json
import Mathlib.Data.List.Basic

/-!
# The compact text of a JSON value

`Value.write` prints a value without blanks, and `parse` reads what was printed
(`parse_write`).  Arrays and objects are the same kind of list for the reader:
elements between commas up to a closing bracket, for any reader of elements
(`bracketed`); the reader of values is such a reader one level deeper, with the
length of the text as a bound on the depth.
-/

namespace ArkInfra

namespace Json

section Lists

variable {α : Type}

/-- The elements after the first one, and the closing bracket. -/
def writeRest (write : α → List Char) (close : Char) : List α → List Char
  | [] => [close]
  | a :: as => ',' :: (write a ++ writeRest write close as)

/-- The elements of a list, and the closing bracket. -/
def writeList (write : α → List Char) (close : Char) : List α → List Char
  | [] => [close]
  | a :: as => write a ++ writeRest write close as

/-- Read elements that are each preceded by a comma, up to the closing
bracket. -/
def restOf (read : List Char → Option (α × List Char)) (close : Char) :
    (fuel : Nat) → List Char → Option (List α × List Char)
  | 0, _ => none
  | _ + 1, [] => none
  | fuel + 1, c :: cs =>
    if c = close then some ([], cs)
    else if c = ',' then do
      let (a, cs) ← read cs
      let (as, cs) ← restOf read close fuel cs
      some (a :: as, cs)
    else
      none

/-- Read the elements of a list up to the closing bracket. -/
def bracketed (read : List Char → Option (α × List Char)) (close : Char) (cs : List Char) :
    Option (List α × List Char) :=
  match cs with
  | [] => none
  | c :: rest =>
    if c = close then some ([], rest)
    else do
      let (a, cs) ← read cs
      let (as, cs) ← restOf read close cs.length cs
      some (a :: as, cs)

def EndsNumber (rest : List Char) : Prop :=
  ∀ c ∈ rest.head?, c.isDigit = false

/-- The reader takes back what was written for an element, when what follows
does not continue a number. -/
def ReadsBack (read : List Char → Option (α × List Char)) (write : α → List Char) (a : α) :
    Prop :=
  ∀ rest, EndsNumber rest → read (write a ++ rest) = some (a, rest)

variable {read : List Char → Option (α × List Char)} {write : α → List Char} {close : Char}

theorem endsNumber_writeRest (write : α → List Char) (hclose : close.isDigit = false)
    (as : List α) (rest : List Char) : EndsNumber (writeRest write close as ++ rest) := by
  intro c hc
  cases as with
  | nil =>
    obtain rfl : close = c := by simpa [writeRest] using hc
    exact hclose
  | cons a as =>
    obtain rfl : ',' = c := by simpa [writeRest] using hc
    decide

theorem length_lt_writeRest (write : α → List Char) (close : Char) (as : List α) :
    as.length < (writeRest write close as).length := by
  induction as with
  | nil =>
    simp [writeRest]
  | cons a as ih =>
    simp only [writeRest, List.length_cons, List.length_append]
    omega

theorem restOf_write (hclose : close.isDigit = false) (hcomma : close ≠ ',') {as : List α}
    (h : ∀ a ∈ as, ReadsBack read write a) (rest : List Char) {fuel : Nat}
    (hfuel : as.length < fuel) :
    restOf read close fuel (writeRest write close as ++ rest) = some (as, rest) := by
  induction as generalizing fuel with
  | nil =>
    cases fuel with
    | zero =>
      omega
    | succ fuel =>
      simp [writeRest, restOf]
  | cons a as ih =>
    cases fuel with
    | zero =>
      omega
    | succ fuel =>
      have hhead := h a (by simp) _ (endsNumber_writeRest write hclose as rest)
      have htail := ih (fun b hb => h b (List.mem_cons_of_mem _ hb))
        (Nat.lt_of_succ_lt_succ hfuel)
      simp only [writeRest, List.cons_append, List.append_assoc, restOf,
        if_neg (Ne.symm hcomma), if_true, hhead, Option.bind_eq_bind, Option.bind_some, htail]

/-- **Lists are read back as they were written.** -/
theorem bracketed_write (close : Char) (hclose : close.isDigit = false) (hcomma : close ≠ ',')
    {as : List α} (h : ∀ a ∈ as, ReadsBack read write a)
    (hstart : ∀ a ∈ as, ∃ c cs, write a = c :: cs ∧ c ≠ close) (rest : List Char) :
    bracketed read close (writeList write close as ++ rest) = some (as, rest) := by
  cases as with
  | nil =>
    simp [bracketed, writeList]
  | cons a as =>
    obtain ⟨c, cs, hwrite, hc⟩ := hstart a (by simp)
    have hhead := h a (by simp) _ (endsNumber_writeRest write hclose as rest)
    have hfuel : as.length < (writeRest write close as ++ rest).length := by
      have hlength := length_lt_writeRest write close as
      rw [List.length_append]
      omega
    have htail := restOf_write hclose hcomma
      (fun b hb => h b (List.mem_cons_of_mem _ hb)) rest hfuel
    simp only [hwrite, List.cons_append] at hhead
    simp only [writeList, bracketed, hwrite, List.cons_append, List.append_assoc, if_neg hc,
      hhead, Option.bind_eq_bind, Option.bind_some, htail]

theorem length_le_writeRest (close : Char) {as : List α} {a : α} (ha : a ∈ as) :
    (write a).length < (writeRest write close as).length := by
  induction as with
  | nil =>
    cases ha
  | cons b as ih =>
    simp only [writeRest, List.length_cons, List.length_append]
    rcases List.mem_cons.mp ha with rfl | hmem
    · omega
    · have hlt := ih hmem
      omega

theorem length_le_writeList (write : α → List Char) (close : Char) {as : List α} {a : α}
    (ha : a ∈ as) :
    (write a).length ≤ (writeList write close as).length := by
  cases as with
  | nil =>
    cases ha
  | cons b as =>
    simp only [writeList, List.length_append]
    rcases List.mem_cons.mp ha with rfl | hmem
    · omega
    · have hlt : (write a).length < (writeRest write close as).length :=
        length_le_writeRest close hmem
      omega

theorem getLast?_writeList (write : α → List Char) (close : Char) (as : List α) :
    (writeList write close as).getLast? = some close := by
  have hrest : ∀ as : List α, (writeRest write close as).getLast? = some close := by
    intro as
    induction as with
    | nil =>
      rfl
    | cons a as ih =>
      rw [writeRest, List.getLast?_cons, List.getLast?_append, ih]
      rfl
  cases as with
  | nil =>
    rfl
  | cons a as =>
    rw [writeList, List.getLast?_append, hrest]
    rfl

theorem writeList_map (write : α → List Char) (close : Char) (as : List α) :
    writeList id close (as.map write) = writeList write close as := by
  have hrest : ∀ as : List α, writeRest id close (as.map write) = writeRest write close as := by
    intro as
    induction as with
    | nil =>
      rfl
    | cons a as ih =>
      rw [List.map_cons, writeRest, writeRest, ih]
      rfl
  cases as with
  | nil =>
    rfl
  | cons a as =>
    rw [List.map_cons, writeList, writeList, hrest]
    rfl

end Lists

section Values

mutual

def Value.write : Value → List Char
  | .null => "null".toList
  | .bool b => if b then "true".toList else "false".toList
  | .number n => writeNat n
  | .string s => writeString s
  | .array items => '[' :: writeList id ']' (writeItems items)
  | .object fields => '\x7b' :: writeList id '\x7d' (writeMembers fields)

def writeItems : List Value → List (List Char)
  | [] => []
  | v :: items => v.write :: writeItems items

def writeMembers : List (String × Value) → List (List Char)
  | [] => []
  | (key, v) :: fields => (writeString key ++ ':' :: v.write) :: writeMembers fields

end

def writeMember (field : String × Value) : List Char :=
  writeString field.1 ++ ':' :: field.2.write

theorem writeItems_eq_map (items : List Value) : writeItems items = items.map Value.write := by
  induction items with
  | nil =>
    rfl
  | cons v items ih =>
    rw [writeItems, ih, List.map_cons]

theorem writeMembers_eq_map (fields : List (String × Value)) :
    writeMembers fields = fields.map writeMember := by
  induction fields with
  | nil =>
    rfl
  | cons field fields ih =>
    rw [writeMembers, ih, List.map_cons]
    rfl

def memberOf (read : List Char → Option (Value × List Char)) (cs : List Char) :
    Option ((String × Value) × List Char) := do
  let (key, cs) ← stringLit cs
  let cs ← literal [':'] cs
  let (v, cs) ← read cs
  some ((key, v), cs)

def readValue : (fuel : Nat) → List Char → Option (Value × List Char)
  | 0, _ => none
  | fuel + 1, cs =>
    match cs with
    | [] => none
    | c :: rest =>
      if c = '[' then (bracketed (readValue fuel) ']' rest).map fun r => (.array r.1, r.2)
      else if c = '\x7b' then
        (bracketed (memberOf (readValue fuel)) '\x7d' rest).map fun r => (.object r.1, r.2)
      else if c = quote then (stringLit cs).map fun r => (.string r.1, r.2)
      else if c = 'n' then (literal "null".toList cs).map fun rest => (.null, rest)
      else if c = 't' then (literal "true".toList cs).map fun rest => (.bool true, rest)
      else if c = 'f' then (literal "false".toList cs).map fun rest => (.bool false, rest)
      else (number cs).map fun r => (.number r.1, r.2)

def parse (text : String) : Option Value :=
  match readValue text.toList.length text.toList with
  | some (v, []) => some v
  | _ => none

theorem writeNat_start (n : Nat) : ∃ c cs, writeNat n = c :: cs ∧ c.isDigit = true := by
  have hdigits : ∀ c ∈ writeNat n, c.isDigit = true := by
    intro c hc
    exact Nat.isDigit_of_mem_toDigits (by decide) (by decide) hc
  cases hw : writeNat n with
  | nil =>
    exact absurd hw Nat.toDigits_ne_nil
  | cons c cs =>
    exact ⟨c, cs, rfl, hdigits c (by simp [hw])⟩

theorem Value.write_start (v : Value) : ∃ c cs, v.write = c :: cs ∧ c ≠ ']' := by
  cases v with
  | null =>
    exact ⟨'n', "ull".toList, rfl, by decide⟩
  | bool b =>
    cases b with
    | false => exact ⟨'f', "alse".toList, rfl, by decide⟩
    | true => exact ⟨'t', "rue".toList, rfl, by decide⟩
  | number n =>
    obtain ⟨c, cs, hw, hc⟩ := writeNat_start n
    refine ⟨c, cs, hw, ?_⟩
    rintro rfl
    revert hc
    decide
  | string s =>
    exact ⟨quote, writeBody s.toList, rfl, by decide⟩
  | array items =>
    exact ⟨'[', _, rfl, by decide⟩
  | object fields =>
    exact ⟨'\x7b', _, rfl, by decide⟩

theorem readsBack_member {read : List Char → Option (Value × List Char)}
    {field : String × Value} (h : ReadsBack read Value.write field.2) :
    ReadsBack (memberOf read) writeMember field := by
  intro rest hrest
  have hcolon : literal [':'] (':' :: (field.2.write ++ rest)) = some (field.2.write ++ rest) :=
    literal_append [':'] _
  simp only [memberOf, writeMember, List.append_assoc, List.cons_append, stringLit_write,
    Option.bind_eq_bind, Option.bind_some, hcolon, h rest hrest]

theorem readsBack_number (fuel n : Nat) : ReadsBack (readValue (fuel + 1)) Value.write (.number n) := by
  intro rest hrest
  obtain ⟨c, cs, hw, hc⟩ := writeNat_start n
  have hother : ∀ d : Char, d.isDigit = false → c ≠ d := by
    rintro d hd rfl
    rw [hc] at hd
    cases hd
  have hnumber := number_write n hrest
  rw [hw, List.cons_append] at hnumber
  simp only [Value.write, hw, List.cons_append, readValue, if_neg (hother '[' (by decide)),
    if_neg (hother '\x7b' (by decide)), if_neg (hother quote (by decide)),
    if_neg (hother 'n' (by decide)), if_neg (hother 't' (by decide)),
    if_neg (hother 'f' (by decide)), hnumber, Option.map_some]

theorem readsBack_null (fuel : Nat) : ReadsBack (readValue (fuel + 1)) Value.write .null := by
  intro rest _
  have hnull := literal_append "null".toList rest
  change (literal "null".toList ("null".toList ++ rest)).map _ = _
  rw [hnull]
  rfl

theorem readsBack_bool (fuel : Nat) (b : Bool) :
    ReadsBack (readValue (fuel + 1)) Value.write (.bool b) := by
  intro rest _
  cases b with
  | false =>
    change (literal "false".toList ("false".toList ++ rest)).map _ = _
    rw [literal_append]
    rfl
  | true =>
    change (literal "true".toList ("true".toList ++ rest)).map _ = _
    rw [literal_append]
    rfl

theorem readsBack_string (fuel : Nat) (s : String) :
    ReadsBack (readValue (fuel + 1)) Value.write (.string s) := by
  intro rest _
  have hstring := stringLit_write s rest
  rw [writeString, List.cons_append] at hstring
  simp only [Value.write, writeString, List.cons_append, readValue, hstring, Option.map_some]
  rfl

theorem readsBack_array {fuel : Nat} {items : List Value}
    (h : ∀ v ∈ items, ReadsBack (readValue fuel) Value.write v) :
    ReadsBack (readValue (fuel + 1)) Value.write (.array items) := by
  intro rest _
  have hlist := bracketed_write ']' (by decide) (by decide) h
    (fun v _ => v.write_start) rest
  simp only [Value.write, writeItems_eq_map, writeList_map, List.cons_append, readValue, if_true,
    hlist, Option.map_some]

theorem readsBack_object {fuel : Nat} {fields : List (String × Value)}
    (h : ∀ field ∈ fields, ReadsBack (readValue fuel) Value.write field.2) :
    ReadsBack (readValue (fuel + 1)) Value.write (.object fields) := by
  intro rest _
  have hlist := bracketed_write '\x7d' (by decide) (by decide)
    (fun field hfield => readsBack_member (h field hfield))
    (fun field _ => ⟨quote, _, rfl, by decide⟩) rest
  simp only [Value.write, writeMembers_eq_map, writeList_map, List.cons_append, readValue,
    if_true, hlist, Option.map_some]
  rfl

mutual

/-- **Values are read back as they were written.** -/
theorem readsBack_write : ∀ (v : Value) {fuel : Nat}, v.write.length ≤ fuel →
    ReadsBack (readValue fuel) Value.write v
  | v, 0, h => by
    obtain ⟨c, cs, hw, _⟩ := v.write_start
    rw [hw] at h
    cases h
  | .null, fuel + 1, _ => readsBack_null fuel
  | .bool b, fuel + 1, _ => readsBack_bool fuel b
  | .number n, fuel + 1, _ => readsBack_number fuel n
  | .string s, fuel + 1, _ => readsBack_string fuel s
  | .array items, fuel + 1, h => by
    refine readsBack_array (readsBack_items items ?_)
    intro v hv
    have hle := length_le_writeList Value.write ']' hv
    rw [Value.write, writeItems_eq_map, writeList_map, List.length_cons] at h
    omega
  | .object fields, fuel + 1, h => by
    refine readsBack_object (readsBack_members fields ?_)
    intro field hfield
    have hle := length_le_writeList writeMember '\x7d' hfield
    have hmember : field.2.write.length ≤ (writeMember field).length := by
      rw [writeMember, List.length_append, List.length_cons]
      omega
    rw [Value.write, writeMembers_eq_map, writeList_map, List.length_cons] at h
    omega

theorem readsBack_items : ∀ (items : List Value) {fuel : Nat},
    (∀ v ∈ items, v.write.length ≤ fuel) → ∀ v ∈ items, ReadsBack (readValue fuel) Value.write v
  | [], _, _, v, hv => by cases hv
  | w :: items, fuel, h, v, hv => by
    rcases List.mem_cons.mp hv with heq | hmem
    · rw [heq]
      exact readsBack_write w (h w (by simp))
    · exact readsBack_items items (fun u hu => h u (List.mem_cons_of_mem _ hu)) v hmem

theorem readsBack_members : ∀ (fields : List (String × Value)) {fuel : Nat},
    (∀ field ∈ fields, field.2.write.length ≤ fuel) →
      ∀ field ∈ fields, ReadsBack (readValue fuel) Value.write field.2
  | [], _, _, field, hfield => by cases hfield
  | (key, v) :: fields, fuel, h, field, hfield => by
    rcases List.mem_cons.mp hfield with heq | hmem
    · rw [heq]
      exact readsBack_write v (h (key, v) (by simp))
    · exact readsBack_members fields (fun f hf => h f (List.mem_cons_of_mem _ hf)) field hmem

end

theorem parse_write (v : Value) : parse (String.ofList v.write) = some v := by
  have hread := readsBack_write v (Nat.le_refl _) [] (by simp [EndsNumber])
  rw [List.append_nil] at hread
  simp only [parse, String.toList_ofList, hread]

end Values

end Json

end ArkInfra
