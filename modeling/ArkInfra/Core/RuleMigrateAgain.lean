import ArkInfra.Core.RuleMigrate

/-!
# Running the migration again

The migration tool is meant to be run over trees that it has already migrated.
`migrate_rule_value` edits the value in place: first the id, then either the
conditions or three marker keys.

`migrateRuleValue_again` says that a failed call leaves the value alone, that a
second call changes nothing and reports again what was not supported, and that
the entries of all other keys stay, in their order.
-/

namespace ArkInfra

open Yaml

namespace RulesMigrate

/-- What a call returns for a value that the call with the given result has left
behind. -/
def MigrateResult.again (result : MigrateResult) : MigrateResult :=
  match result.status with
  | .partialMigration => result
  | .migrated | .unchanged => ⟨.unchanged, []⟩

section Again

variable {T : Type}

theorem isSome_id_ensureRuleId (map : Mapping T) (pack : String) :
    (Mapping.lookup "id" (ensureRuleId map pack)).isSome = true := by
  unfold ensureRuleId
  cases hid : Mapping.lookup "id" map with
  | some value => simp [hid]
  | none => simp

theorem ensureRuleId_of_isSome {map : Mapping T}
    (h : (Mapping.lookup "id" map).isSome = true) (pack : String) :
    ensureRuleId map pack = map := by
  unfold ensureRuleId
  cases hid : Mapping.lookup "id" map with
  | some value => rfl
  | none => simp [hid] at h

theorem asMapping_newConditions {map : Mapping T} {rewritten : Rewrite T}
    (h : rewriteConditions map = some rewritten)
    (hnull : rewritten.newConditions.isNull = false) :
    rewritten.newConditions.asMapping = none := by
  unfold rewriteConditions at h
  dsimp only at h
  split at h
  · split_ifs at h
    · cases h
      rfl
    · cases h
      cases hnull
  · split_ifs at h
    · cases h
      rfl
    · cases h
      cases hnull
  · cases h
    cases hnull
  · cases h

theorem migrateMapping_of_none {map : Mapping T}
    (hid : (Mapping.lookup "id" map).isSome = true)
    (hnone : (Mapping.lookup "conditions" map).bind
      (fun conditions => conditions.asMapping.bind rewriteConditions) = none) (pack : String) :
    migrateMapping pack map = (map, ⟨.unchanged, []⟩) := by
  unfold migrateMapping
  rw [ensureRuleId_of_isSome hid]
  cases hc : Mapping.lookup "conditions" map with
  | none => simp only [hc]
  | some conditions =>
    rw [hc, Option.bind_some] at hnone
    simp only [hc, hnone]

/-- A call on entries that have an id and all marks of an incomplete
migration. -/
theorem migrateMapping_of_marked {map : Mapping T} {conditions : Value T}
    {rewritten : Rewrite T} (hid : (Mapping.lookup "id" map).isSome = true)
    (hc : Mapping.lookup "conditions" map = some conditions)
    (hrewrite : conditions.asMapping.bind rewriteConditions = some rewritten)
    (hnull : rewritten.newConditions.isNull = true)
    (hincomplete : Mapping.lookup "migration_incomplete" map = some (.bool true))
    (hnotes : Mapping.lookup "migration_notes" map =
      some (.sequence (rewritten.notes.map Value.string)))
    (hlegacy : Mapping.lookup "migration_legacy_conditions" map = some conditions)
    (pack : String) :
    migrateMapping pack map = (map, ⟨.partialMigration, rewritten.unsupported⟩) := by
  unfold migrateMapping
  rw [ensureRuleId_of_isSome hid]
  simp only [hc, hrewrite, hnull, if_true]
  rw [Mapping.insert_of_lookup hincomplete, Mapping.insert_of_lookup hnotes,
    Mapping.insert_of_lookup hlegacy]

/-- **A second call** leaves the entries alone. -/
theorem migrateMapping_again (pack : String) (map : Mapping T) :
    migrateMapping pack (migrateMapping pack map).1 =
      ((migrateMapping pack map).1, MigrateResult.again (migrateMapping pack map).2) := by
  have hid := isSome_id_ensureRuleId map pack
  have hfirst := migrationOf_migrateMapping pack map
  generalize migrateMapping pack map = first at hfirst
  cases hfirst with
  | unchanged hnone =>
    exact migrateMapping_of_none hid hnone pack
  | marked conditions rewritten hc hrewrite hnull =>
    refine migrateMapping_of_marked ?_ ?_ hrewrite hnull ?_ ?_ ?_ pack
    · simp [Mapping.lookup_insert, hid]
    · simp [Mapping.lookup_insert, hc]
    · simp [Mapping.lookup_insert]
    · simp [Mapping.lookup_insert]
    · simp
  | migrated conditions rewritten _ hrewrite hnull =>
    obtain ⟨legacy, _, hlegacy⟩ := Option.bind_eq_some_iff.mp hrewrite
    refine migrateMapping_of_none ?_ ?_ pack
    · simp [Mapping.lookup_insert, hid]
    · simp [Mapping.lookup_insert, asMapping_newConditions hlegacy hnull]

theorem others_migrateMapping (pack : String) (map : Mapping T) :
    Mapping.others touchedKeys (migrateMapping pack map).1 =
      Mapping.others touchedKeys map := by
  have hid : Mapping.others touchedKeys (ensureRuleId map pack) =
      Mapping.others touchedKeys map := by
    unfold ensureRuleId
    cases Mapping.lookup "id" map with
    | some value => rfl
    | none => exact Mapping.others_insert (by decide) _ _
  have hcall := migrationOf_migrateMapping pack map
  generalize migrateMapping pack map = first at hcall
  cases hcall with
  | unchanged =>
    exact hid
  | marked =>
    rw [Mapping.others_insert (by decide), Mapping.others_insert (by decide),
      Mapping.others_insert (by decide), hid]
  | migrated =>
    rw [Mapping.others_insert (by decide), Mapping.others_insert (by decide),
      Mapping.others_insert (by decide), hid]

/-- **Migration is idempotent and fails cleanly.**  A call that returns an error
leaves the value as it was.  Otherwise a second call returns `Ok`, changes
nothing, and reports an unchanged rule, or the same incomplete migration; and
the entries of the keys that the tool does not use are those of the value, in
their order. -/
theorem migrateRuleValue_again (path : PathBuf) (value : Value T) :
    (∀ e, (migrateRuleValue path value).2 = .error e → (migrateRuleValue path value).1 = value) ∧
    ∀ result, (migrateRuleValue path value).2 = .ok result →
      migrateRuleValue path (migrateRuleValue path value).1 =
        ((migrateRuleValue path value).1, .ok result.again) ∧
      ∃ map map', value.asMapping = some map ∧
        (migrateRuleValue path value).1.asMapping = some map' ∧
        Mapping.others touchedKeys map' = Mapping.others touchedKeys map := by
  unfold migrateRuleValue
  cases hupdate : value.updateMapping (migrateMapping (inferPack path)) with
  | none =>
    refine ⟨fun _ _ => rfl, ?_⟩
    intro result hresult
    cases hresult
  | some updated =>
    obtain ⟨value', result'⟩ := updated
    refine ⟨(fun e he => by cases he), ?_⟩
    intro result hresult
    cases hresult
    obtain ⟨map, hbefore, hafter, hres, hagain⟩ := Value.of_updateMapping hupdate
    have hsecond := hagain _ (migrateMapping_again (inferPack path) map)
    refine ⟨?_, map, _, hbefore, hafter, others_migrateMapping _ map⟩
    simp only [hsecond, hres]

/-- A tagged rule with a condition that is not supported stays incomplete, and a
document that is no mapping stays what it is. -/
theorem migrateRuleValue_again_partial :
    let path := PathBuf.ofText "rules/nvidia/a.yaml"
    let rule : Value String := .tag "!rule" (.mapping [(.string "scene", .string "gpu"),
      (.string "conditions", .mapping [(.string "all", .sequence
        [.mapping [(.string "type", .string "regex")]])])])
    let migrated := (migrateRuleValue path rule).1
    migrateRuleValue path migrated =
      (migrated, .ok ⟨.partialMigration, ["unsupported_type_regex"]⟩) ∧
    (migrateRuleValue path (.null : Value String)).1 = .null := by
  intro path rule migrated
  have hstatus : (migrateRuleValue path rule).2 =
      .ok ⟨.partialMigration, ["unsupported_type_regex"]⟩ := by
    rfl
  exact ⟨((migrateRuleValue_again path rule).2 _ hstatus).1,
    (migrateRuleValue_again path .null).1 _ rfl⟩

end Again

end RulesMigrate

end ArkInfra
