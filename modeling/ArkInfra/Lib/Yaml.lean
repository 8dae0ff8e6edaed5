import ArkInfra.Lib.Text
import Mathlib.Tactic.SplitIfs

/-!
# YAML values

The values a YAML document holds, after its scalars are resolved: a plain
scalar may be null, a boolean or a number, everything else is a string.  A
number is given by the text it is printed with.

A value may carry any number of tags, at any place.  The accessors look through
the tags of the value they are applied to, also when they give the entries of a
mapping away to be changed (`updateMapping`); a key with a tag is another key
than the string behind it.  What a tag is does not matter, and the values
without tags are those over an empty type of them (`Plain`).

A mapping is a list of entries in the order of the document; `lookup` finds a
string key and `insert` replaces its value in place, or appends an entry.
-/

namespace ArkInfra

namespace Yaml

inductive Value (T : Type) where
  | null
  | bool (b : Bool)
  | number (text : String)
  | string (s : String)
  | sequence (items : List (Value T))
  | mapping (entries : List (Value T × Value T))
  | tag (name : T) (value : Value T)

abbrev Plain := Value Empty

abbrev Mapping (T : Type) := List (Value T × Value T)

namespace Value

variable {T : Type}

def asStr : Value T → Option String
  | string s => some s
  | tag _ value => value.asStr
  | _ => none

def asSequence : Value T → Option (List (Value T))
  | sequence items => some items
  | tag _ value => value.asSequence
  | _ => none

def asMapping : Value T → Option (Mapping T)
  | mapping entries => some entries
  | tag _ value => value.asMapping
  | _ => none

def isNull : Value T → Bool
  | null => true
  | tag _ value => value.isNull
  | _ => false

/-- The value is the given string, without a tag. -/
def isKey (key : String) : Value T → Bool
  | string s => decide (s = key)
  | _ => false

/-- Change the entries of a mapping in place. -/
def updateMapping {α : Type} (f : Mapping T → Mapping T × α) : Value T → Option (Value T × α)
  | mapping entries => some (mapping (f entries).1, (f entries).2)
  | tag name value => (updateMapping f value).map fun r => (tag name r.1, r.2)
  | _ => none

theorem isKey_string (key key' : String) :
    isKey key (string key' : Value T) = decide (key' = key) := by
  rfl

theorem eq_of_isKey {k : Value T} {key key' : String} (h : k.isKey key = true)
    (h' : k.isKey key' = true) : key = key' := by
  cases k with
  | string s =>
    rw [isKey_string, decide_eq_true_eq] at h h'
    exact h.symm.trans h'
  | _ =>
    cases h

/-- What a change in place does to the entries; a second change that would leave
them leaves the value. -/
theorem of_updateMapping {α : Type} {f : Mapping T → Mapping T × α} {value value' : Value T}
    {a : α} (h : updateMapping f value = some (value', a)) :
    ∃ entries, value.asMapping = some entries ∧ value'.asMapping = some (f entries).1 ∧
      a = (f entries).2 ∧
      ∀ b, f (f entries).1 = ((f entries).1, b) → updateMapping f value' = some (value', b) := by
  fun_induction updateMapping f value generalizing value' with
  | case1 entries =>
    cases h
    refine ⟨entries, rfl, rfl, rfl, ?_⟩
    intro b hb
    rw [updateMapping, hb]
  | case2 name value ih =>
    obtain ⟨⟨inner, b⟩, hinner, heq⟩ := Option.map_eq_some_iff.mp h
    cases heq
    obtain ⟨entries, hbefore, hafter, ha, hagain⟩ := ih hinner
    refine ⟨entries, hbefore, hafter, ha, ?_⟩
    intro b hb
    rw [updateMapping, hagain b hb]
    rfl
  | case3 => cases h

section Plain

theorem eq_sequence_of_asSequence {value : Plain} {items : List Plain}
    (h : value.asSequence = some items) : value = .sequence items := by
  cases value with
  | sequence items' =>
    obtain rfl := Option.some.inj h
    rfl
  | tag name _ =>
    exact name.elim
  | _ =>
    cases h

theorem eq_mapping_of_asMapping {value : Plain} {entries : Mapping Empty}
    (h : value.asMapping = some entries) : value = .mapping entries := by
  cases value with
  | mapping entries' =>
    obtain rfl := Option.some.inj h
    rfl
  | tag name _ =>
    exact name.elim
  | _ =>
    cases h

end Plain

end Value

namespace Mapping

variable {T V : Type}

def lookup (key : String) : List (Value T × V) → Option V
  | [] => none
  | (k, v) :: entries => if k.isKey key then some v else lookup key entries

def insert (key : String) (value : V) : List (Value T × V) → List (Value T × V)
  | [] => [(.string key, value)]
  | (k, v) :: entries =>
    if k.isKey key then (k, value) :: entries else (k, v) :: insert key value entries

/-- The entries whose key is none of the given strings. -/
def others (keys : List String) (entries : List (Value T × V)) : List (Value T × V) :=
  entries.filter fun e => keys.all fun key => !e.1.isKey key

/-- **The value that was inserted is found**, and the others are as before. -/
theorem lookup_insert (key key' : String) (value : V) (entries : List (Value T × V)) :
    lookup key' (insert key value entries) =
      if key' = key then some value else lookup key' entries := by
  induction entries with
  | nil =>
    by_cases hkey : key' = key
    · simp [insert, lookup, Value.isKey_string, hkey]
    · simp [insert, lookup, Value.isKey_string, hkey, Ne.symm hkey]
  | cons entry entries ih =>
    obtain ⟨k, v⟩ := entry
    by_cases hk : k.isKey key = true
    · by_cases hkey : key' = key
      · simp [insert, lookup, hk, hkey]
      · have hother : ¬ k.isKey key' = true := fun h => hkey (Value.eq_of_isKey h hk)
        simp [insert, lookup, hk, hkey, hother]
    · by_cases hk' : k.isKey key' = true
      · have hkey : key' ≠ key := by
          rintro rfl
          exact hk hk'
        simp [insert, lookup, hk, hk', hkey]
      · rw [insert, if_neg hk, lookup, if_neg hk', ih, lookup, if_neg hk']

@[simp] theorem lookup_insert_self (key : String) (value : V) (entries : List (Value T × V)) :
    lookup key (insert key value entries) = some value := by
  simp [lookup_insert]

theorem insert_of_lookup {key : String} {value : V} {entries : List (Value T × V)}
    (h : lookup key entries = some value) : insert key value entries = entries := by
  induction entries with
  | nil =>
    cases h
  | cons entry entries ih =>
    obtain ⟨k, v⟩ := entry
    rw [lookup] at h
    rw [insert]
    split_ifs at h ⊢ with hk
    · cases h
      rfl
    · rw [ih h]

theorem others_insert {keys : List String} {key : String} (hkey : key ∈ keys) (value : V)
    (entries : List (Value T × V)) :
    others keys (insert key value entries) = others keys entries := by
  have hout : ∀ (k : Value T) (v : V) (rest : List (Value T × V)), k.isKey key = true →
      others keys ((k, v) :: rest) = others keys rest := by
    intro k v rest hk
    apply List.filter_cons_of_neg
    intro hall
    have hnot := List.all_eq_true.mp hall key hkey
    simp [hk] at hnot
  induction entries with
  | nil =>
    exact hout _ _ [] (by simp [Value.isKey_string])
  | cons entry entries ih =>
    obtain ⟨k, v⟩ := entry
    rw [insert]
    split_ifs with hk
    · rw [hout k value entries hk, hout k v entries hk]
    · unfold others at ih ⊢
      rw [List.filter_cons, List.filter_cons, ih]

end Mapping

end Yaml

end ArkInfra
