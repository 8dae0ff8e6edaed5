import ArkInfra.Lib.Interact
import ArkInfra.Lib.Run

/-!
# A worker that can be cut off

A task reads messages one at a time.  A message may begin a job, which is a
program that calls out; the task does not read on before the job is done, and
stands at a call of it in the meantime.  The task can be dropped at any moment,
with its unread messages and with what was left of its job.

`accounts_run` is what holds in every state of every run: the calls that were
made are those of the jobs in the order of their messages, each job at most
once and each up to some call, and no more jobs were cut short than tasks
dropped.  When no task was dropped, every job is begun or still unread
(`keeps_run`).
-/

namespace ArkInfra

inductive Reaction (J : Type) where
  | begin (job : J)
  | skip
  | stop
deriving DecidableEq

/-- A job that was begun, with the calls that were made for it. -/
structure Execution (J C : Type) where
  job : J
  calls : List C

/-- Where the task stands: between messages, at a call of a job, or nowhere. -/
inductive Task (J C : Type) (A : C → Type) (R : Type) where
  | reading
  | running (job : J) (issued : List C) (c : C) (next : A c → Interact C A R)
  | ended

structure Worker (M J C : Type) (A : C → Type) (R : Type) where
  inbox : List M
  task : Task J C A R
  past : List (Execution J C)

namespace Worker

variable {M J C R : Type} {A : C → Type}

/-- A task that was just started. -/
def new : Worker M J C A R where
  inbox := []
  task := .reading
  past := []

def flat (past : List (Execution J C)) : List C :=
  past.flatMap Execution.calls

@[simp] theorem flat_append (a b : List (Execution J C)) : flat (a ++ b) = flat a ++ flat b :=
  List.flatMap_append

@[simp] theorem flat_singleton (e : Execution J C) : flat [e] = e.calls := by
  simp [flat]

/-- The job the task stands in, with the calls made for it. -/
def current (s : Worker M J C A R) : List (Execution J C) :=
  match s.task with
  | .running job issued c _ => [⟨job, issued ++ [c]⟩]
  | _ => []

def begun (s : Worker M J C A R) : List (Execution J C) :=
  s.past ++ s.current

def history (s : Worker M J C A R) : List C :=
  flat s.begun

inductive Input (M : Type) where
  | deliver (m : M)
  | turn
  | abort (restart : Bool)

section Step

variable (react : M → Reaction J) (program : J → Interact C A R) (host : Host C A)

def proceed (s : Worker M J C A R) (job : J) (issued : List C) (p : Interact C A R) :
    Worker M J C A R :=
  match p with
  | .done _ => { s with past := s.past ++ [⟨job, issued⟩], task := .reading }
  | .call c next => { s with task := .running job issued c next }

def readNext (s : Worker M J C A R) : Worker M J C A R :=
  match s.inbox with
  | [] => s
  | m :: rest =>
    match react m with
    | .begin job => proceed { s with inbox := rest } job [] (program job)
    | .skip => { s with inbox := rest }
    | .stop => { s with inbox := rest, task := .ended }

def turn (s : Worker M J C A R) : Worker M J C A R :=
  match s.task with
  | .reading => readNext react program s
  | .running job issued c next =>
    proceed s job (issued ++ [c]) (next (host (flat s.past ++ issued) c))
  | .ended => s

/-- Drop the task, and start a new one or none. -/
def abort (s : Worker M J C A R) (restart : Bool) : Worker M J C A R where
  inbox := []
  task := if restart then .reading else .ended
  past := s.begun

def step (s : Worker M J C A R) : Input M → Worker M J C A R
  | .deliver m => { s with inbox := s.inbox ++ [m] }
  | .turn => turn react program host s
  | .abort restart => s.abort restart

end Step

def jobsOf (react : M → Reaction J) (ms : List M) : List J :=
  ms.filterMap fun m =>
    match react m with
    | .begin job => some job
    | _ => none

def delivered (inputs : List (Input M)) : List M :=
  inputs.filterMap fun
    | .deliver m => some m
    | _ => none

def aborts (inputs : List (Input M)) : Nat :=
  inputs.countP fun
    | .abort _ => true
    | _ => false

section Accounts

variable (program : J → Interact C A R) (host : Host C A)

/-- Every job made the first calls of its program, as they come after the calls
of the jobs before it. -/
def Begins : List C → List (Execution J C) → Prop
  | _, [] => True
  | before, e :: es => e.calls <+: (program e.job).calls host before ∧ Begins (before ++ e.calls) es

/-- How many jobs did not make all their calls. -/
def cuts [DecidableEq C] : List C → List (Execution J C) → Nat
  | _, [] => 0
  | before, e :: es =>
    (if e.calls = (program e.job).calls host before then 0 else 1) + cuts (before ++ e.calls) es

theorem begins_append {before : List C} {a b : List (Execution J C)} :
    Begins program host before (a ++ b) ↔
      Begins program host before a ∧ Begins program host (before ++ flat a) b := by
  induction a generalizing before with
  | nil =>
    simp [Begins, flat]
  | cons e a ih =>
    simp [Begins, ih, flat, and_assoc]

theorem exists_of_begins {before : List C} {es : List (Execution J C)}
    (h : Begins program host before es) {e : Execution J C} (he : e ∈ es) :
    ∃ before', e.calls <+: (program e.job).calls host before' := by
  induction es generalizing before with
  | nil =>
    cases he
  | cons e' es ih =>
    rcases List.mem_cons.mp he with rfl | hmem
    · exact ⟨before, h.1⟩
    · exact ih h.2 hmem

theorem exists_of_cuts_eq_zero [DecidableEq C] {before : List C} {es : List (Execution J C)}
    (h : cuts program host before es = 0) {e : Execution J C} (he : e ∈ es) :
    ∃ before', e.calls = (program e.job).calls host before' := by
  induction es generalizing before with
  | nil =>
    cases he
  | cons e' es ih =>
    rw [cuts] at h
    rcases List.mem_cons.mp he with rfl | hmem
    · refine ⟨before, ?_⟩
      by_contra hcut
      rw [if_neg hcut] at h
      omega
    · exact ih (Nat.eq_zero_of_add_eq_zero_left h) hmem

theorem cuts_append [DecidableEq C] (before : List C) (a b : List (Execution J C)) :
    cuts program host before (a ++ b) =
      cuts program host before a + cuts program host (before ++ flat a) b := by
  induction a generalizing before with
  | nil =>
    simp [cuts, flat]
  | cons e a ih =>
    simp [cuts, ih, flat, Nat.add_assoc]

def AtCall (s : Worker M J C A R) : Prop :=
  match s.task with
  | .running job issued c next =>
    (program job).calls host (flat s.past) =
      issued ++ (Interact.call c next).calls host (flat s.past ++ issued)
  | _ => True

/-- What holds of a worker: the jobs that were begun, with the calls they made. -/
structure Accounts [DecidableEq C] (react : M → Reaction J) (s : Worker M J C A R)
    (ms : List M) (n : Nat) : Prop where
  begins : Begins program host [] s.past
  cuts_le : cuts program host [] s.past ≤ n
  atCall : s.AtCall program host
  order : (s.begun.map Execution.job ++ jobsOf react s.inbox).Sublist (jobsOf react ms)

end Accounts

theorem length_current_le (s : Worker M J C A R) : s.current.length ≤ 1 := by
  unfold current
  split <;> simp

@[simp] theorem begun_abort (s : Worker M J C A R) (restart : Bool) :
    (s.abort restart).begun = s.begun := by
  cases restart <;> simp [abort, begun, current]

section Jobs

variable (react : M → Reaction J)

@[simp] theorem jobsOf_nil : jobsOf react ([] : List M) = [] :=
  rfl

@[simp] theorem jobsOf_append (a b : List M) :
    jobsOf react (a ++ b) = jobsOf react a ++ jobsOf react b :=
  List.filterMap_append

theorem jobsOf_begin {m : M} {job : J} (h : react m = .begin job) (ms : List M) :
    jobsOf react (m :: ms) = job :: jobsOf react ms := by
  simp [jobsOf, h]

theorem jobsOf_other {m : M} (h : ∀ job, react m ≠ .begin job) (ms : List M) :
    jobsOf react (m :: ms) = jobsOf react ms := by
  unfold jobsOf
  rw [List.filterMap_cons]
  cases hm : react m with
  | begin job => exact absurd hm (h job)
  | skip => rfl
  | stop => rfl

end Jobs

section Steps

variable [DecidableEq C] {react : M → Reaction J} {program : J → Interact C A R} {host : Host C A}
  {s : Worker M J C A R} {ms : List M} {n : Nat}

theorem accounts_new : Accounts program host react (new : Worker M J C A R) [] 0 where
  begins := trivial
  cuts_le := Nat.le_refl 0
  atCall := trivial
  order := by simp [new, begun, current]

theorem accounts_proceed {job : J} {issued : List C} {p : Interact C A R}
    (hbegins : Begins program host [] s.past) (hcuts : cuts program host [] s.past ≤ n)
    (horder : (s.past.map Execution.job ++ job :: jobsOf react s.inbox).Sublist (jobsOf react ms))
    (hcalls : (program job).calls host (flat s.past) =
      issued ++ p.calls host (flat s.past ++ issued)) :
    Accounts program host react (proceed s job issued p) ms n := by
  cases p with
  | done r =>
    rw [Interact.calls_done, List.append_nil] at hcalls
    refine ⟨?_, ?_, trivial, ?_⟩
    · rw [proceed, begins_append]
      exact ⟨hbegins, by simp [Begins, hcalls]⟩
    · rw [proceed, cuts_append]
      simpa [cuts, hcalls] using hcuts
    · simpa [proceed, begun, current] using horder
  | call c next =>
    refine ⟨hbegins, hcuts, hcalls, ?_⟩
    simpa [proceed, begun, current] using horder

theorem accounts_readNext (h : Accounts program host react s ms n) (hreading : s.task = .reading) :
    Accounts program host react (readNext react program s) ms n := by
  have horder := h.order
  simp only [begun, current, hreading, List.append_nil] at horder
  unfold readNext
  cases hinbox : s.inbox with
  | nil =>
    exact h
  | cons m rest =>
    rw [hinbox] at horder
    cases hm : react m with
    | begin job =>
      rw [jobsOf_begin react hm] at horder
      simp only [hm]
      exact accounts_proceed h.begins h.cuts_le horder (by simp)
    | skip =>
      rw [jobsOf_other react (by simp [hm])] at horder
      simp only [hm]
      refine ⟨h.begins, h.cuts_le, ?_, ?_⟩
      · simp [AtCall, hreading]
      · simpa [begun, current, hreading] using horder
    | stop =>
      rw [jobsOf_other react (by simp [hm])] at horder
      simp only [hm]
      refine ⟨h.begins, h.cuts_le, trivial, ?_⟩
      simpa [begun, current] using horder

theorem accounts_turn (h : Accounts program host react s ms n) :
    Accounts program host react (turn react program host s) ms n := by
  unfold turn
  cases htask : s.task with
  | reading =>
    exact accounts_readNext h htask
  | ended =>
    exact h
  | running job issued c next =>
    have hat := h.atCall
    have horder := h.order
    simp only [AtCall, htask] at hat
    simp only [begun, current, htask, List.map_append, List.map_cons, List.map_nil,
      List.append_assoc, List.cons_append, List.nil_append] at horder
    refine accounts_proceed h.begins h.cuts_le horder ?_
    rw [hat, ← List.append_assoc]
    simp [Interact.calls]

theorem begins_begun (h : Accounts program host react s ms n) :
    Begins program host [] s.begun ∧ cuts program host [] s.begun ≤ n + s.current.length := by
  have hat := h.atCall
  unfold begun
  rw [begins_append, cuts_append]
  cases htask : s.task with
  | reading | ended =>
    simp only [current, htask, Begins, and_true, cuts, Nat.add_zero, List.length_nil]
    exact ⟨h.begins, h.cuts_le⟩
  | running job issued c next =>
    simp only [AtCall, htask] at hat
    simp only [current, htask, Begins, and_true, cuts, Nat.add_zero, List.length_singleton,
      List.nil_append]
    refine ⟨⟨h.begins, ?_⟩, ?_⟩
    · rw [hat]
      refine ⟨(next (host (flat s.past ++ issued) c)).calls host
        (flat s.past ++ issued ++ [c]), ?_⟩
      simp [Interact.calls]
    · have hcuts := h.cuts_le
      split_ifs <;> omega

/-- **What the jobs have called**, when the calls of each of them are known and
none was cut short. -/
theorem history_known (h : Accounts program host react s ms 0) (known : J → List C)
    (hknown : ∀ e ∈ s.begun, ∀ before, (program e.job).calls host before = known e.job) :
    s.history <+: (s.begun.map Execution.job).flatMap known ∧
      (s.current = [] → s.history = (s.begun.map Execution.job).flatMap known) := by
  have hpast : flat s.past = (s.past.map Execution.job).flatMap known := by
    rw [flat, List.flatMap_map]
    refine List.flatMap_congr ?_
    intro e he
    obtain ⟨before, hcalls⟩ := exists_of_cuts_eq_zero program host (Nat.le_zero.mp h.cuts_le) he
    exact hcalls.trans (hknown e (List.mem_append_left _ he) before)
  have hbegins := (begins_append program host).mp (begins_begun h).1
  have hcurrent : flat s.current <+: (s.current.map Execution.job).flatMap known := by
    cases hjob : s.current with
    | nil =>
      exact List.prefix_refl []
    | cons e rest =>
      have hone := length_current_le s
      rw [hjob, List.length_cons] at hone
      obtain rfl := List.eq_nil_of_length_eq_zero (by omega : rest.length = 0)
      have hmem : e ∈ s.begun := List.mem_append_right _ (hjob ▸ List.mem_singleton_self e)
      have hbegun := hbegins.2
      rw [hjob] at hbegun
      simpa [hknown e hmem] using hbegun.1
  have hhistory : s.history = flat s.past ++ flat s.current := flat_append _ _
  refine ⟨?_, ?_⟩
  · rw [hhistory, begun, List.map_append, List.flatMap_append, hpast]
    exact (List.prefix_append_right_inj _).mpr hcurrent
  · intro hidle
    rw [hhistory, begun, hidle, List.append_nil, hpast]
    exact List.append_nil _

theorem accounts_abort (h : Accounts program host react s ms n) (restart : Bool) :
    Accounts program host react (s.abort restart) ms (n + 1) := by
  obtain ⟨hbegins, hcuts⟩ := begins_begun h
  have hone := length_current_le s
  refine ⟨hbegins, ?_, ?_, ?_⟩
  · change cuts program host [] s.begun ≤ n + 1
    omega
  · cases restart <;> exact trivial
  · rw [begun_abort]
    simpa [abort] using (List.sublist_append_left _ _).trans h.order

/-- **One step keeps the accounts.** -/
theorem accounts_step (h : Accounts program host react s ms n) (input : Input M) :
    Accounts program host react (step react program host s input) (ms ++ delivered [input])
      (n + aborts [input]) := by
  cases input with
  | deliver m =>
    refine ⟨h.begins, h.cuts_le, h.atCall, ?_⟩
    have horder := h.order.append (List.Sublist.refl (jobsOf react [m]))
    simpa [step, delivered, begun, current] using horder
  | turn =>
    simpa [step, delivered, aborts] using accounts_turn h
  | abort restart =>
    simpa [step, delivered, aborts] using accounts_abort h restart

/-- **Every run keeps the accounts.** -/
theorem accounts_run (inputs : List (Input M)) :
    Accounts program host react (Run.run (step react program host) new inputs)
      (delivered inputs) (aborts inputs) := by
  induction inputs using List.reverseRecOn with
  | nil =>
    exact accounts_new
  | append_singleton inputs input ih =>
    rw [Run.run_concat]
    have hstep := accounts_step ih input
    simpa [delivered, aborts] using hstep

end Steps

section Undisturbed

variable {react : M → Reaction J} {program : J → Interact C A R} {host : Host C A}
  {s : Worker M J C A R} {ms : List M}

/-- Nothing was lost: every job is begun or still unread. -/
def Keeps (react : M → Reaction J) (s : Worker M J C A R) (ms : List M) : Prop :=
  s.begun.map Execution.job ++ jobsOf react s.inbox = jobsOf react ms

theorem keeps_proceed {job : J} {issued : List C} {p : Interact C A R}
    (hjobs : s.past.map Execution.job ++ job :: jobsOf react s.inbox = jobsOf react ms) :
    Keeps react (proceed s job issued p) ms := by
  cases p with
  | done r =>
    simpa [Keeps, proceed, begun, current] using hjobs
  | call c next =>
    simpa [Keeps, proceed, begun, current] using hjobs

theorem keeps_turn (h : Keeps react s ms) : Keeps react (turn react program host s) ms := by
  have hjobs := h
  unfold turn
  cases htask : s.task with
  | ended =>
    exact h
  | running job issued c next =>
    simp only [Keeps, begun, current, htask, List.map_append, List.map_cons, List.map_nil,
      List.append_assoc, List.cons_append, List.nil_append] at hjobs
    exact keeps_proceed hjobs
  | reading =>
    simp only [Keeps, begun, current, htask, List.append_nil] at hjobs
    unfold readNext
    cases hinbox : s.inbox with
    | nil =>
      exact h
    | cons m rest =>
      rw [hinbox] at hjobs
      cases hm : react m with
      | begin job =>
        rw [jobsOf_begin react hm] at hjobs
        simp only [hm]
        exact keeps_proceed hjobs
      | skip =>
        rw [jobsOf_other react (by simp [hm])] at hjobs
        simp only [hm]
        simpa [Keeps, begun, current, htask] using hjobs
      | stop =>
        -- the message begins no job, and what comes after it stays unread
        rw [jobsOf_other react (by simp [hm])] at hjobs
        simp only [hm]
        simpa [Keeps, begun, current] using hjobs

/-- **No job is lost** while the task is not dropped. -/
theorem keeps_run (inputs : List (Input M)) (hkept : aborts inputs = 0) :
    Keeps react (Run.run (step react program host) (new : Worker M J C A R) inputs)
      (delivered inputs) := by
  induction inputs using List.reverseRecOn with
  | nil =>
    rfl
  | append_singleton inputs input ih =>
    have hdelivered : delivered (inputs ++ [input]) = delivered inputs ++ delivered [input] := by
      simp [delivered]
    have haborts : aborts (inputs ++ [input]) = aborts inputs + aborts [input] := by
      simp [aborts]
    rw [hdelivered, Run.run_concat]
    have hbefore := ih (by omega)
    cases input with
    | deliver m =>
      have hjobs := congrArg (· ++ jobsOf react [m]) hbefore
      simpa [Keeps, step, delivered, begun, current] using hjobs
    | turn =>
      simpa [step, delivered] using keeps_turn hbefore
    | abort restart =>
      have hone : aborts [Input.abort restart (M := M)] = 1 := rfl
      omega

end Undisturbed

end Worker

end ArkInfra
