import ArkInfra.Lib.Yaml

/-!
# YAML documents

A scalar of a document is a text, and it resolves to a value: the plain scalars
`1.50` and `0x1F` to the numbers that are printed as `1.5` and `31`, `~` to
null.  How a text is resolved is no part of this library; a scalar has both, its
text and what it resolves to.  A reader that asks for a string gets the text, one
that asks for a value gets what it resolves to (`toValue`).

When a value is written, the text of each scalar is the one it is printed with
(`ofValue`).  Reading the value back gives the same one (`toValue_ofValue`), but
a document that is read as a value and written again may have got other texts:
`Stable` says that a scalar keeps its own.
-/

namespace ArkInfra

namespace Yaml

inductive Scalar where
  | null
  | bool (b : Bool)
  | number (printed : String)
  | string

inductive Doc where
  | scalar (text : String) (kind : Scalar)
  | sequence (items : List Doc)
  | mapping (entries : List (Plain × Doc))

def Scalar.value (text : String) : Scalar → Plain
  | .null => .null
  | .bool b => .bool b
  | .number printed => .number printed
  | .string => .string text

def Value.scalarText : Plain → Option String
  | .null => some "null"
  | .bool b => some (if b then "true" else "false")
  | .number printed => some printed
  | .string s => some s
  | _ => none

namespace Doc

/-- The text of a scalar, whatever it resolves to. -/
def text : Doc → Option String
  | scalar text _ => some text
  | _ => none

def asSequence : Doc → Option (List Doc)
  | sequence items => some items
  | _ => none

def asMapping : Doc → Option (List (Plain × Doc))
  | mapping entries => some entries
  | _ => none

def isNull : Doc → Bool
  | scalar _ .null => true
  | _ => false

mutual

def toValue : Doc → Plain
  | scalar text kind => kind.value text
  | sequence items => .sequence (toValues items)
  | mapping entries => .mapping (toEntries entries)

def toValues : List Doc → List Plain
  | [] => []
  | item :: items => toValue item :: toValues items

def toEntries : List (Plain × Doc) → Mapping Empty
  | [] => []
  | (key, doc) :: entries => (key, toValue doc) :: toEntries entries

end

mutual

/-- The document that is written for a value. -/
def ofValue : Plain → Doc
  | .null => .scalar "null" .null
  | .bool b => .scalar (if b then "true" else "false") (.bool b)
  | .number printed => .scalar printed (.number printed)
  | .string s => .scalar s .string
  | .sequence items => .sequence (ofValues items)
  | .mapping entries => .mapping (ofEntries entries)
  | .tag name _ => name.elim

def ofValues : List Plain → List Doc
  | [] => []
  | item :: items => ofValue item :: ofValues items

def ofEntries : List (Plain × Plain) → List (Plain × Doc)
  | [] => []
  | (key, value) :: entries => (key, ofValue value) :: ofEntries entries

end

/-- The text of a scalar is the one that is written for its value. -/
def Stable (doc : Doc) : Prop :=
  doc.toValue.scalarText = doc.text

instance (doc : Doc) : Decidable doc.Stable :=
  inferInstanceAs (Decidable (doc.toValue.scalarText = doc.text))

section Resolve

@[simp] theorem isNull_toValue (doc : Doc) : doc.toValue.isNull = doc.isNull := by
  cases doc with
  | scalar text kind => cases kind <;> rfl
  | _ => rfl

@[simp] theorem asMapping_toValue (doc : Doc) :
    doc.toValue.asMapping = doc.asMapping.map toEntries := by
  cases doc with
  | scalar text kind => cases kind <;> rfl
  | _ => rfl

@[simp] theorem lookup_toEntries (key : String) (entries : List (Plain × Doc)) :
    Mapping.lookup key (toEntries entries) = (Mapping.lookup key entries).map toValue := by
  induction entries with
  | nil =>
    rfl
  | cons entry entries ih =>
    obtain ⟨k, doc⟩ := entry
    rw [toEntries, Mapping.lookup, Mapping.lookup]
    split_ifs
    · rfl
    · exact ih

theorem isSome_scalarText_toValue (doc : Doc) :
    doc.toValue.scalarText.isSome = doc.text.isSome := by
  cases doc with
  | scalar text kind => cases kind <;> rfl
  | _ => rfl

end Resolve

section Write

@[simp] theorem text_ofValue (value : Plain) : (ofValue value).text = value.scalarText := by
  cases value with
  | tag name _ => exact name.elim
  | _ => rfl

@[simp] theorem isNull_ofValue (value : Plain) : (ofValue value).isNull = value.isNull := by
  cases value with
  | tag name _ => exact name.elim
  | _ => rfl

@[simp] theorem asMapping_ofValue (value : Plain) :
    (ofValue value).asMapping = value.asMapping.map ofEntries := by
  cases value with
  | tag name _ => exact name.elim
  | _ => rfl

@[simp] theorem lookup_ofEntries (key : String) (entries : Mapping Empty) :
    Mapping.lookup key (ofEntries entries) = (Mapping.lookup key entries).map ofValue := by
  induction entries with
  | nil =>
    rfl
  | cons entry entries ih =>
    obtain ⟨k, value⟩ := entry
    rw [ofEntries, Mapping.lookup, Mapping.lookup]
    split_ifs
    · rfl
    · exact ih

mutual

/-- **A value that is written is read back.** -/
@[simp] theorem toValue_ofValue : ∀ value : Plain, (ofValue value).toValue = value
  | .null => rfl
  | .bool _ => rfl
  | .number _ => rfl
  | .string _ => rfl
  | .sequence items => by
    rw [ofValue, toValue, toValues_ofValues items]
  | .mapping entries => by
    rw [ofValue, toValue, toEntries_ofEntries entries]
  | .tag name _ => name.elim

@[simp] theorem toValues_ofValues : ∀ items : List Plain, toValues (ofValues items) = items
  | [] => rfl
  | item :: items => by
    rw [ofValues, toValues, toValue_ofValue item, toValues_ofValues items]

@[simp] theorem toEntries_ofEntries : ∀ entries : Mapping Empty,
    toEntries (ofEntries entries) = entries
  | [] => rfl
  | (key, value) :: entries => by
    rw [ofEntries, toEntries, toValue_ofValue value, toEntries_ofEntries entries]

end

end Write

section Rewrite

/-- The document that is written for the value of a document. -/
def rewritten (doc : Doc) : Doc :=
  ofValue doc.toValue

theorem isSome_text_rewritten (doc : Doc) : doc.rewritten.text.isSome = doc.text.isSome := by
  rw [rewritten, text_ofValue, isSome_scalarText_toValue]

@[simp] theorem isNull_rewritten (doc : Doc) : doc.rewritten.isNull = doc.isNull := by
  rw [rewritten, isNull_ofValue, isNull_toValue]

@[simp] theorem toValue_rewritten (doc : Doc) : doc.rewritten.toValue = doc.toValue := by
  rw [rewritten, toValue_ofValue]

theorem ofValues_toValues (items : List Doc) :
    ofValues (toValues items) = items.map rewritten := by
  induction items with
  | nil =>
    rfl
  | cons item items ih =>
    rw [toValues, ofValues, ih]
    rfl

theorem asSequence_rewritten (doc : Doc) :
    doc.rewritten.asSequence = doc.asSequence.map (List.map rewritten) := by
  cases doc with
  | scalar text kind => cases kind <;> rfl
  | mapping entries => rfl
  | sequence items =>
    change some (ofValues (toValues items)) = _
    rw [ofValues_toValues]
    rfl

theorem lookup_ofEntries_toEntries (key : String) (entries : List (Plain × Doc)) :
    Mapping.lookup key (ofEntries (toEntries entries)) =
      (Mapping.lookup key entries).map rewritten := by
  rw [lookup_ofEntries, lookup_toEntries, Option.map_map]
  rfl

theorem asMapping_rewritten (doc : Doc) :
    doc.rewritten.asMapping = doc.asMapping.map fun entries => ofEntries (toEntries entries) := by
  cases doc with
  | scalar text kind => cases kind <;> rfl
  | _ => rfl

end Rewrite

end Doc

end Yaml

end ArkInfra
