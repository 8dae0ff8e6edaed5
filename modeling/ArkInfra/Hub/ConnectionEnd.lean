import ArkInfra.Hub.Connections

/-!
# What an ended connection leaves in the table

The last thing `handle_connection` does is to remove its entry from the
connection table.  A close message and the end of the stream lead there, and so
does every path on which the connection has changed its node id, since a running
connection has no entry but the one under its own id.  A read error does not: it
leaves the function from inside the loop, and the entry stays behind.

`endedGone_iff` says which runs never keep the entry of an ended connection:
those in which a connection fails only after another one has taken its place in
the table.
-/

namespace ArkInfra

namespace Connections

/-- The table leads to no connection that has ended. -/
def EndedGone (s : Connections) : Prop :=
  ∀ c, c < s.accepted → s.nodeIds.lookup c = none → ∀ k, s.table.lookup k ≠ some c

/-- If the step is a read error, the table does not lead to the connection under
its node id. -/
def FailsUnregistered (s : Connections) (x : Step) : Prop :=
  ∀ c, x = .fail c → ∀ n ∈ s.nodeIds.lookup c, s.table.lookup n ≠ some c

/-- In other words, the entries of the table are those of running
connections. -/
theorem EndedGone.running {s : Connections} {log : List (String × ConnId)} (h : s.EndedGone)
    (hcoh : s.Coherent log) {k : String} {c : ConnId} (hk : s.table.lookup k = some c) :
    ∃ n, s.nodeIds.lookup c = some n := by
  rw [← Option.ne_none_iff_exists']
  intro hnone
  exact h c (hcoh.entry_lt k c hk) hnone k hk

theorem endedGone_of_running {s : Connections}
    (h : ∀ k c, s.table.lookup k = some c → ∃ n, s.nodeIds.lookup c = some n) : s.EndedGone := by
  intro c _ hnone k hk
  obtain ⟨n, hn⟩ := h k c hk
  rw [hnone] at hn
  cases hn

section Steps

variable {s : Connections} {log : List (String × ConnId)}

theorem endedGone_register (h : s.EndedGone) (hcoh : s.Coherent log) {c accepted : ConnId}
    {table : HashMap String ConnId} {nodeId : String}
    (htable : ∀ k d, table.lookup k = some d → d = c ∨ s.table.lookup k = some d) :
    EndedGone
      { table := table
        nodeIds := s.nodeIds.insert c nodeId
        accepted := accepted } := by
  apply endedGone_of_running
  intro k d hk
  simp only [HashMap.lookup_insert_ite]
  by_cases hdc : d = c
  · exact ⟨nodeId, if_pos hdc⟩
  · rw [if_neg hdc]
    exact h.running hcoh ((htable k d hk).resolve_left hdc)

theorem endedGone_connect (h : s.EndedGone) (hcoh : s.Coherent log) (ip : String) :
    (s.connect ip).EndedGone := by
  refine endedGone_register h hcoh ?_
  intro k d hk
  rw [HashMap.lookup_insert_ite] at hk
  split_ifs at hk
  · exact Or.inl (Option.some.inj hk).symm
  · exact Or.inr hk

theorem endedGone_receive (h : s.EndedGone) (hcoh : s.Coherent log) {c : ConnId}
    {nodeId : String} (event : Event) : (s.receiveEvent c nodeId event).1.EndedGone := by
  unfold receiveEvent
  cases event.nodeId with
  | none =>
    exact h
  | some eventNodeId =>
    dsimp only
    by_cases hne : eventNodeId ≠ nodeId
    · rw [if_pos hne]
      refine endedGone_register h hcoh ?_
      intro k d hk
      simp only [HashMap.lookup_insert_ite, HashMap.lookup_erase_ite] at hk
      split_ifs at hk
      · exact Or.inl (Option.some.inj hk).symm
      · exact Or.inr hk
    · rw [if_neg hne]
      exact h

theorem endedGone_close (h : s.EndedGone) (hcoh : s.Coherent log) {c : ConnId}
    {nodeId : String} (hc : s.nodeIds.lookup c = some nodeId) : (s.close c nodeId).EndedGone := by
  apply endedGone_of_running
  intro k d hk
  simp only [close, HashMap.lookup_erase_ite] at hk ⊢
  split_ifs at hk with hkn
  have hdc : d ≠ c := by
    rintro rfl
    exact hkn (hcoh.entry_own k d nodeId hk hc).1.symm
  rw [if_neg hdc]
  exact h.running hcoh hk

theorem endedGone_fail_iff (h : s.EndedGone) (hcoh : s.Coherent log) (c : ConnId) :
    (s.fail c).EndedGone ↔ ∀ n ∈ s.nodeIds.lookup c, s.table.lookup n ≠ some c := by
  constructor
  · intro hfail n hn hentry
    refine hfail c (hcoh.running_lt c n hn) ?_ n hentry
    simp [fail]
  · intro hfree
    apply endedGone_of_running
    intro k d hk
    have hdc : d ≠ c := by
      rintro rfl
      obtain ⟨n, hn⟩ := h.running hcoh hk
      obtain rfl := (hcoh.entry_own k d n hk hn).1
      exact hfree n hn hk
    simp only [fail, HashMap.lookup_erase_ite, if_neg hdc]
    exact h.running hcoh hk

/-- **One step.**  Only a read error can leave an entry behind. -/
theorem endedGone_step_iff (h : s.EndedGone) (hcoh : s.Coherent log) (x : Step) :
    s.FailsUnregistered x ↔ (s.step x).EndedGone := by
  cases x with
  | connect ip =>
    exact iff_of_true (fun c hx => by cases hx) (endedGone_connect h hcoh ip)
  | receive c event =>
    refine iff_of_true (fun c hx => by cases hx) ?_
    cases hc : s.nodeIds.lookup c with
    | none =>
      simpa only [step, hc] using h
    | some nodeId =>
      simpa only [step, hc] using endedGone_receive h hcoh event
  | close c =>
    refine iff_of_true (fun c hx => by cases hx) ?_
    cases hc : s.nodeIds.lookup c with
    | none =>
      simpa only [step, hc] using h
    | some nodeId =>
      simpa only [step, hc] using endedGone_close h hcoh hc
  | fail c =>
    rw [step, endedGone_fail_iff h hcoh]
    constructor
    · intro hfail
      exact hfail c rfl
    · rintro hfree _ ⟨⟩
      exact hfree

end Steps

/-- **Which runs keep no entry of an ended connection**: exactly those in which
every read error hits a connection whose place in the table has been taken. -/
theorem endedGone_iff (steps : List Step) :
    Run.Meets step FailsUnregistered new steps ↔
      ∀ seen rest, steps = seen ++ rest →
        let s := Run.run step new seen
        ∀ c, c < s.accepted → s.nodeIds.lookup c = none → ∀ k, s.table.lookup k ≠ some c := by
  refine Run.meets_iff_forall_seen (P := fun seen => (Run.run step new seen).EndedGone) ?_ ?_
  · intro c hc
    exact absurd hc (Nat.not_lt_zero c)
  · intro seen x rest _ hseen
    rw [Run.run_concat]
    exact endedGone_step_iff hseen (coherent_run seen) x

/-- **A read error leaves the connection registered.**  The only connection has
ended, and the table still leads to its sender. -/
theorem endedGone_readError :
    let s := Run.run step new [.connect "10.0.0.5", .fail 0]
    0 < s.accepted ∧ s.nodeIds.lookup 0 = none ∧ s.table.lookup "node-10.0.0.5" = some 0 := by
  decide

end Connections

end ArkInfra
