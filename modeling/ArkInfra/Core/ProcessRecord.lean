import Mathlib.Data.Option.Basic
import Mathlib.Tactic.SplitIfs

/-!
# Process records

Of a process node only two things decide whether the cleanup removes it: the
recorded state and the time of the last update.  A process record keeps just
these.  It changes in three ways: a start overwrites it, an end marks it, and
any other mention of the process creates it when it is missing.

Two graphs that hear of the same process at different times hold different
records of it.  `Outlives` is the relation under which the record of the first
is removed by a cleanup only if the record of the second is removed as well.
It is preserved when both see an operation, when only the second sees a plain
mention, and by a cleanup on either side.
-/

namespace ArkInfra

/-- What the cleanup looks at in a process node. -/
structure Proc where
  state : Option String
  lastUpdate : Nat

namespace Proc

def Ended (p : Proc) : Prop :=
  p.state = some "exit" ∨ p.state = some "zombie"

/-- The cleanup with the given cutoff removes the process. -/
def Dead (cutoff : Nat) (p : Proc) : Prop :=
  p.Ended ∨ (p.lastUpdate < cutoff ∧ p.state ≠ some "running")

instance (p : Proc) : Decidable p.Ended :=
  inferInstanceAs (Decidable (_ ∨ _))

instance (cutoff : Nat) (p : Proc) : Decidable (p.Dead cutoff) :=
  inferInstanceAs (Decidable (_ ∨ _))

theorem not_dead_of_running {p : Proc} (h : p.state = some "running") (cutoff : Nat) :
    ¬ p.Dead cutoff := by
  simp [Dead, Ended, h]

def survivor (cutoff : Nat) (o : Option Proc) : Option Proc :=
  o.filter (fun p => decide (¬ p.Dead cutoff))

theorem mem_survivor {cutoff : Nat} {o : Option Proc} {p : Proc} :
    p ∈ survivor cutoff o ↔ p ∈ o ∧ ¬ p.Dead cutoff := by
  simp [survivor, Option.mem_def, Option.filter_eq_some_iff]

end Proc

/-- What an event does to the record of a process. -/
inductive ProcOp where
  | start
  | finish (value : String)
  | ensure (state : Option String)

namespace ProcOp

/-- An end is an exit or a zombie, and a new record is running or unknown. -/
def Valid : ProcOp → Prop
  | .start => True
  | .finish value => value = "exit" ∨ value = "zombie"
  | .ensure state => state = none ∨ state = some "running"

/-- The operation creates a missing record and leaves others alone. -/
def isEnsure : ProcOp → Bool
  | .ensure _ => true
  | _ => false

/-- The record after the operation at the given time. -/
def effect (ts : Nat) : ProcOp → Option Proc → Option Proc
  | .start, _ => some { state := some "running", lastUpdate := ts }
  | .finish value, o => o.map fun _ => { state := some value, lastUpdate := ts }
  | .ensure state, o => some (o.getD { state := state, lastUpdate := ts })

/-- The effect on the record of `pid` of an operation on some process. -/
def effectOn (ts pid : Nat) (op : Option (Nat × ProcOp)) (o : Option Proc) : Option Proc :=
  match op with
  | some x => if x.1 = pid then x.2.effect ts o else o
  | none => o

/-- A property of the record that holds before the operation and after every
operation on the process itself. -/
theorem effectOn_induction {P : Option Proc → Prop} {ts pid : Nat}
    {op : Option (Nat × ProcOp)} {o : Option Proc} (hold : P o)
    (hstep : ∀ x ∈ op, x.1 = pid → P (x.2.effect ts o)) : P (effectOn ts pid op o) := by
  unfold effectOn
  cases op with
  | none =>
    exact hold
  | some x =>
    simp only
    split_ifs with hpid
    · exact hstep x rfl hpid
    · exact hold

theorem lastUpdate_effect {op : ProcOp} {ts : Nat} {o : Option Proc}
    (h : ∀ p ∈ o, p.lastUpdate ≤ ts) : ∀ p ∈ op.effect ts o, p.lastUpdate ≤ ts := by
  intro p hp
  cases op with
  | start =>
    cases hp
    exact Nat.le_refl ts
  | finish value =>
    obtain ⟨_, _, rfl⟩ := Option.map_eq_some_iff.mp hp
    exact Nat.le_refl ts
  | ensure state =>
    cases o with
    | none =>
      cases hp
      exact Nat.le_refl ts
    | some q =>
      cases hp
      exact h q rfl

end ProcOp

/-- The record `kept` outlives the record `own`: it is running if the other one
is, it has ended only if the other one has, and unless it is running it was
updated no earlier. -/
structure Outlives (kept own : Option Proc) : Prop where
  running : ∀ p ∈ own, p.state = some "running" → ∃ q ∈ kept, q.state = some "running"
  ended : ∀ p ∈ own, ∀ q ∈ kept, q.Ended → p.Ended
  updated : ∀ p ∈ own, ∀ q ∈ kept, q.state ≠ some "running" → p.lastUpdate ≤ q.lastUpdate

namespace Outlives

variable {kept own : Option Proc}

theorem of_none (kept : Option Proc) : Outlives kept none := by
  constructor
  · intro p hp
    cases hp
  · intro p hp
    cases hp
  · intro p hp
    cases hp

theorem refl (o : Option Proc) : Outlives o o := by
  constructor
  · intro p hp hrun
    exact ⟨p, hp, hrun⟩
  · intro p hp q hq hend
    rw [Option.mem_unique hp hq]
    exact hend
  · intro p hp q hq _
    exact Nat.le_of_eq (congrArg Proc.lastUpdate (Option.mem_unique hp hq))

theorem dead (h : Outlives kept own) {p q : Proc} (hp : p ∈ own) (hq : q ∈ kept)
    {cutoff : Nat} (hdead : q.Dead cutoff) : p.Dead cutoff := by
  rcases hdead with hend | ⟨hold, hstate⟩
  · exact Or.inl (h.ended p hp q hq hend)
  · right
    constructor
    · exact Nat.lt_of_le_of_lt (h.updated p hp q hq hstate) hold
    · intro hrun
      obtain ⟨q', hq', hrun'⟩ := h.running p hp hrun
      rw [Option.mem_unique hq' hq] at hrun'
      exact hstate hrun'

theorem finish (kept own : Option Proc) {value : String}
    (hvalid : (ProcOp.finish value).Valid) (ts : Nat) :
    Outlives ((ProcOp.finish value).effect ts kept) ((ProcOp.finish value).effect ts own) := by
  constructor
  · intro p hp hrun
    obtain ⟨_, _, rfl⟩ := Option.map_eq_some_iff.mp hp
    rcases hvalid with rfl | rfl
    · simp at hrun
    · simp at hrun
  · intro p hp q hq _
    obtain ⟨_, _, rfl⟩ := Option.map_eq_some_iff.mp hp
    rcases hvalid with rfl | rfl
    · exact Or.inl rfl
    · exact Or.inr rfl
  · intro p hp q hq _
    obtain ⟨_, _, rfl⟩ := Option.map_eq_some_iff.mp hp
    obtain ⟨_, _, rfl⟩ := Option.map_eq_some_iff.mp hq
    exact Nat.le_refl ts

theorem created {p : Proc} (h : Outlives none (some p)) {state : Option String}
    (hvalid : (ProcOp.ensure state).Valid) {ts : Nat} (hts : p.lastUpdate ≤ ts) :
    Outlives (some { state := state, lastUpdate := ts }) (some p) := by
  constructor
  · rintro _ ⟨rfl⟩ hrun
    -- a running process would not have been lost
    obtain ⟨q, hq, _⟩ := h.running p rfl hrun
    cases hq
  · rintro _ _ _ ⟨rfl⟩ hend
    rcases hvalid with rfl | rfl
    · simp [Proc.Ended] at hend
    · simp [Proc.Ended] at hend
  · rintro _ ⟨rfl⟩ _ ⟨rfl⟩ _
    exact hts

theorem effect (h : Outlives kept own) {op : ProcOp} (hvalid : op.Valid) {ts : Nat}
    (hts : ∀ p ∈ own, p.lastUpdate ≤ ts)
    (hnew : op.isEnsure = true → own = none → kept = none) :
    Outlives (op.effect ts kept) (op.effect ts own) := by
  cases op with
  | start =>
    exact refl _
  | finish value =>
    exact finish kept own hvalid ts
  | ensure state =>
    cases own with
    | none =>
      rw [hnew rfl rfl]
      exact refl _
    | some p =>
      cases kept with
      | some q =>
        exact h
      | none =>
        exact h.created hvalid (hts p rfl)

theorem ensure_own (h : Outlives kept own) (ts : Nat) (hnew : own = none → kept = none) :
    Outlives kept ((ProcOp.ensure none).effect ts own) := by
  cases own with
  | some p =>
    exact h
  | none =>
    rw [hnew rfl]
    constructor
    · rintro _ ⟨rfl⟩ hrun
      cases hrun
    · intro p _ q hq
      cases hq
    · intro p _ q hq
      cases hq

theorem effectOn (h : Outlives kept own) {ts pid : Nat} {op : Option (Nat × ProcOp)}
    (hvalid : ∀ x ∈ op, x.2.Valid) (hts : ∀ p ∈ own, p.lastUpdate ≤ ts)
    (hnew : ∀ x ∈ op, x.1 = pid → x.2.isEnsure = true → own = none → kept = none) :
    Outlives (ProcOp.effectOn ts pid op kept) (ProcOp.effectOn ts pid op own) := by
  unfold ProcOp.effectOn
  cases op with
  | none =>
    exact h
  | some x =>
    simp only
    split_ifs with hpid
    · exact h.effect (hvalid x rfl) hts (hnew x rfl hpid)
    · exact h

theorem effectOn_own (h : Outlives kept own) {ts pid : Nat} {op : Option (Nat × ProcOp)}
    (hmention : ∀ x ∈ op, x.2 = .ensure none)
    (hnew : ∀ x ∈ op, x.1 = pid → own = none → kept = none) :
    Outlives kept (ProcOp.effectOn ts pid op own) := by
  refine ProcOp.effectOn_induction (P := fun o => Outlives kept o) h ?_
  intro x hx hpid
  rw [hmention x hx]
  exact h.ensure_own ts (hnew x hx hpid)

theorem survivor_kept (h : Outlives kept own) (cutoff : Nat) :
    Outlives (Proc.survivor cutoff kept) own := by
  constructor
  · intro p hp hrun
    obtain ⟨q, hq, hq'⟩ := h.running p hp hrun
    exact ⟨q, Proc.mem_survivor.mpr ⟨hq, Proc.not_dead_of_running hq' cutoff⟩, hq'⟩
  · intro p hp q hq
    exact h.ended p hp q (Proc.mem_survivor.mp hq).1
  · intro p hp q hq
    exact h.updated p hp q (Proc.mem_survivor.mp hq).1

theorem survivor_own (h : Outlives kept own) (cutoff : Nat) :
    Outlives kept (Proc.survivor cutoff own) := by
  constructor
  · intro p hp
    exact h.running p (Proc.mem_survivor.mp hp).1
  · intro p hp
    exact h.ended p (Proc.mem_survivor.mp hp).1
  · intro p hp
    exact h.updated p (Proc.mem_survivor.mp hp).1

end Outlives

end ArkInfra
