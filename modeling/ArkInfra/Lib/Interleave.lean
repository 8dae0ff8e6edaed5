import ArkInfra.Lib.Run

/-!
# Interleaved calls

Any number of calls work on one shared state.  A call is a sequence of
sections, each of which runs atomically because it holds a lock; between two
sections of a call any other call may run.  A `Pool` is the shared state with
the private states of the calls, and an action either starts a call or runs
the next section of one.

Two rules reduce statements about all interleavings to single sections.
`invariant_of_meets` is the rely-guarantee rule: what a section establishes
for its own call and what the sections of the other calls leave intact holds
in every reachable pool.  `exclusive_of_meets` is mutual exclusion: if a call
enters its critical part only while no other call with the same key is inside,
then no two of them ever are.

`meets_guarded` is the rule for a lock that is kept over several sections: calls
that are busy only between taking and returning it are busy one at a time.

`InTurn` is for calls that draw numbers and give them up one after the other:
if a call gives up its number only while every other call has a later one, the
numbers are given up in the order in which they were drawn.
-/

namespace ArkInfra

/-- A shared state and the calls on it, in the order in which they started. -/
structure Pool (σ τ : Type) where
  shared : σ
  calls : List τ

namespace Pool

/-- A call starts, or the call with the given number runs its next section in
some environment. -/
inductive Action (ι κ : Type) where
  | call (arg : ι)
  | advance (index : Nat) (env : κ)
deriving DecidableEq

variable {σ τ ι κ : Type}

/-- One action, for calls that begin as `enter` says and whose sections are
given by `sect`. -/
def step (enter : ι → τ) (sect : σ → τ → κ → σ × τ) (p : Pool σ τ) :
    Action ι κ → Pool σ τ
  | .call arg => { p with calls := p.calls ++ [enter arg] }
  | .advance i env =>
    match p.calls[i]? with
    | none => p
    | some c =>
      { shared := (sect p.shared c env).1
        calls := p.calls.set i (sect p.shared c env).2 }

section Steps

variable {enter : ι → τ} {sect : σ → τ → κ → σ × τ}

theorem step_advance {p : Pool σ τ} {i : Nat} {c : τ} (hc : p.calls[i]? = some c) (env : κ) :
    p.step enter sect (.advance i env) =
      { shared := (sect p.shared c env).1
        calls := p.calls.set i (sect p.shared c env).2 } := by
  simp [step, hc]

theorem step_advance_none {p : Pool σ τ} {i : Nat} (hc : p.calls[i]? = none) (env : κ) :
    p.step enter sect (.advance i env) = p := by
  simp [step, hc]

/-- The calls after a section: the one that ran it, and the others as they
were. -/
theorem getElem?_set_cases {calls : List τ} {i j : Nat} {c d : τ}
    (h : (calls.set i c)[j]? = some d) : (j = i ∧ d = c) ∨ (j ≠ i ∧ calls[j]? = some d) := by
  by_cases hj : j = i
  · subst hj
    left
    rw [List.getElem?_set_self'] at h
    cases hold : calls[j]? with
    | none =>
      simp [hold] at h
    | some old =>
      simp [hold] at h
      exact ⟨rfl, h.symm⟩
  · right
    rw [List.getElem?_set_ne (Ne.symm hj)] at h
    exact ⟨hj, h⟩

theorem getElem?_concat_cases {calls : List τ} {j : Nat} {c d : τ}
    (h : (calls ++ [c])[j]? = some d) : (j = calls.length ∧ d = c) ∨ calls[j]? = some d := by
  rcases Nat.lt_or_ge j calls.length with hlt | hge
  · right
    rw [List.getElem?_append_left hlt] at h
    exact h
  · left
    rw [List.getElem?_append_right hge, List.getElem?_singleton] at h
    split_ifs at h with hzero
    · exact ⟨by omega, (Option.some.inj h).symm⟩

end Steps

section Calls

/-- The arguments of the calls that are started. -/
def callArgs (actions : List (Action ι κ)) : List ι :=
  actions.filterMap fun
    | .call arg => some arg
    | .advance _ _ => none

variable {enter : ι → τ} {sect : σ → τ → κ → σ × τ} {α : Type}

theorem map_calls_run {f : τ → α} (hkeep : ∀ s c env, f (sect s c env).2 = f c)
    (p : Pool σ τ) (actions : List (Action ι κ)) :
    (Run.run (step enter sect) p actions).calls.map f =
      p.calls.map f ++ (callArgs actions).map fun arg => f (enter arg) := by
  induction actions generalizing p with
  | nil =>
    simp [callArgs]
  | cons action actions ih =>
    rw [Run.run_cons, ih]
    cases action with
    | call arg =>
      simp [step, callArgs]
    | advance i env =>
      cases hc : p.calls[i]? with
      | none =>
        rw [step_advance_none hc]
        rfl
      | some c =>
        have hset : (p.calls.set i (sect p.shared c env).2).map f = p.calls.map f := by
          obtain ⟨hi, rfl⟩ := List.getElem?_eq_some_iff.mp hc
          rw [List.map_set, hkeep, ← List.getElem_map f (h := by simpa using hi),
            List.set_getElem_self]
        rw [step_advance hc, hset]
        rfl

theorem flatten_map_set {f : τ → List α} {calls : List τ} {i : Nat} {c c' : τ} {new : List α}
    (hc : calls[i]? = some c) (hnew : f c' = f c ++ new) :
    ((calls.set i c').map f).flatten.Perm ((calls.map f).flatten ++ new) := by
  induction calls generalizing i with
  | nil =>
    cases hc
  | cons first calls ih =>
    cases i with
    | zero =>
      obtain rfl : first = c := Option.some.inj hc
      rw [List.set_cons_zero, List.map_cons, List.flatten_cons, hnew, List.map_cons,
        List.flatten_cons, List.append_assoc, List.append_assoc]
      exact List.perm_append_comm.append_left _
    | succ i =>
      rw [List.set_cons_succ, List.map_cons, List.flatten_cons, List.map_cons,
        List.flatten_cons, List.append_assoc]
      exact (ih hc).append_left _

theorem forall_calls_of_meets {C : Pool σ τ → Action ι κ → Prop} {J : τ → Prop}
    (hcall : ∀ arg, J (enter arg))
    (hself : ∀ p i c env, C p (.advance i env) → J c → J (sect p.shared c env).2)
    {p : Pool σ τ} (hp : ∀ c ∈ p.calls, J c) {actions : List (Action ι κ)}
    (hmeets : Run.Meets (step enter sect) C p actions) :
    ∀ c ∈ (Run.run (step enter sect) p actions).calls, J c := by
  refine Run.invariant_of_meets (I := fun p : Pool σ τ => ∀ c ∈ p.calls, J c) ?_ hp hmeets
  intro p action hp haction
  cases action with
  | call arg =>
    intro c hc
    rcases List.mem_append.mp hc with hold | hnew
    · exact hp c hold
    · rw [List.mem_singleton.mp hnew]
      exact hcall arg
  | advance i env =>
    cases hi : p.calls[i]? with
    | none =>
      rw [step_advance_none hi]
      exact hp
    | some c =>
      rw [step_advance hi]
      intro d hd
      rcases List.mem_or_eq_of_mem_set hd with hold | rfl
      · exact hp d hold
      · exact hself p i c env haction (hp c (List.mem_of_getElem? hi))

end Calls

section Turns

variable (number : τ → Option Nat)

/-- Every other call that has a number has a later one. -/
def First (calls : List τ) (i n : Nat) : Prop :=
  ∀ (j : Nat) d, calls[j]? = some d → j ≠ i → ∀ m, number d = some m → n < m

instance decidableFirst (calls : List τ) (i n : Nat) : Decidable (First number calls i n) :=
  decidable_of_iff
    (∀ j ∈ List.range calls.length, ∀ d ∈ calls[j]?, j ≠ i → ∀ m ∈ number d, n < m) (by
      constructor
      · intro h j d hd hji m hm
        have hj : j < calls.length := (List.getElem?_eq_some_iff.mp hd).1
        exact h j (List.mem_range.mpr hj) d hd hji m hm
      · intro h j _ d hd hji m hm
        exact h j d hd hji m hm)

/-- The numbers below `next` are drawn, some calls have one, and those in
`done` were given up in the order in which they were drawn, before the ones
that calls still have. -/
structure InTurn (calls : List τ) (next : Nat) (done : List Nat) : Prop where
  drawn : ∀ (i : Nat) c n, calls[i]? = some c → number c = some n → n < next
  done_drawn : ∀ n ∈ done, n < next
  done_before : ∀ m ∈ done, ∀ (i : Nat) c n, calls[i]? = some c → number c = some n → m < n
  sorted : done.Pairwise (· < ·)

variable {number}

theorem inTurn_nil (next : Nat) : InTurn number ([] : List τ) next [] := by
  constructor <;> simp

theorem InTurn.enter {calls : List τ} {next : Nat} {done : List Nat}
    (h : InTurn number calls next done) {c : τ} (hc : number c = none) :
    InTurn number (calls ++ [c]) next done where
  drawn := by
    intro i d n hd hn
    rcases getElem?_concat_cases hd with ⟨_, rfl⟩ | hold
    · rw [hc] at hn
      cases hn
    · exact h.drawn i d n hold hn
  done_drawn := h.done_drawn
  done_before := by
    intro m hm i d n hd hn
    rcases getElem?_concat_cases hd with ⟨_, rfl⟩ | hold
    · rw [hc] at hn
      cases hn
    · exact h.done_before m hm i d n hold hn
  sorted := h.sorted

theorem InTurn.keep {calls : List τ} {next : Nat} {done : List Nat}
    (h : InTurn number calls next done) {i : Nat} {c c' : τ} (hc : calls[i]? = some c)
    (hc' : ∀ n, number c' = some n → number c = some n) :
    InTurn number (calls.set i c') next done where
  drawn := by
    intro j d n hd hn
    rcases getElem?_set_cases hd with ⟨_, rfl⟩ | ⟨_, hold⟩
    · exact h.drawn i c n hc (hc' n hn)
    · exact h.drawn j d n hold hn
  done_drawn := h.done_drawn
  done_before := by
    intro m hm j d n hd hn
    rcases getElem?_set_cases hd with ⟨_, rfl⟩ | ⟨_, hold⟩
    · exact h.done_before m hm i c n hc (hc' n hn)
    · exact h.done_before m hm j d n hold hn
  sorted := h.sorted

theorem InTurn.draw {calls : List τ} {next : Nat} {done : List Nat}
    (h : InTurn number calls next done) (i : Nat) {c' : τ} (hc' : number c' = some next) :
    InTurn number (calls.set i c') (next + 1) done where
  drawn := by
    intro j d n hd hn
    rcases getElem?_set_cases hd with ⟨_, rfl⟩ | ⟨_, hold⟩
    · rw [hc', Option.some.injEq] at hn
      omega
    · have hlt := h.drawn j d n hold hn
      omega
  done_drawn := by
    intro n hn
    have hlt := h.done_drawn n hn
    omega
  done_before := by
    intro m hm j d n hd hn
    rcases getElem?_set_cases hd with ⟨_, rfl⟩ | ⟨_, hold⟩
    · rw [hc', Option.some.injEq] at hn
      have hlt := h.done_drawn m hm
      omega
    · exact h.done_before m hm j d n hold hn
  sorted := h.sorted

theorem InTurn.finish {calls : List τ} {next : Nat} {done : List Nat}
    (h : InTurn number calls next done) {i n : Nat} {c c' : τ} (hc : calls[i]? = some c)
    (hn : number c = some n) (hc' : number c' = none) (hfirst : First number calls i n) :
    InTurn number (calls.set i c') next (done ++ [n]) where
  drawn := by
    intro j d m hd hm
    rcases getElem?_set_cases hd with ⟨_, rfl⟩ | ⟨_, hold⟩
    · rw [hc'] at hm
      cases hm
    · exact h.drawn j d m hold hm
  done_drawn := by
    intro m hm
    rcases List.mem_append.mp hm with hm | hm
    · exact h.done_drawn m hm
    · rw [List.mem_singleton.mp hm]
      exact h.drawn i c n hc hn
  done_before := by
    intro m hm j d k hd hk
    rcases getElem?_set_cases hd with ⟨_, rfl⟩ | ⟨hji, hold⟩
    · rw [hc'] at hk
      cases hk
    · rcases List.mem_append.mp hm with hm | hm
      · exact h.done_before m hm j d k hold hk
      · rw [List.mem_singleton.mp hm]
        exact hfirst j d hold hji k hk
  sorted := by
    refine List.pairwise_append.mpr ⟨h.sorted, List.pairwise_singleton _ _, ?_⟩
    intro m hm k hk
    rw [List.mem_singleton.mp hk]
    exact h.done_before m hm i c n hc hn

end Turns

/-- The shared state satisfies `I`, and every call satisfies `J` with it. -/
structure Holds (I : σ → Prop) (J : σ → τ → Prop) (p : Pool σ τ) : Prop where
  shared : I p.shared
  calls : ∀ (i : Nat) c, p.calls[i]? = some c → J p.shared c

/-- **Rely-guarantee rule.**  Every section keeps `I` and brings its own call
from `J` to `J`, and leaves `J` of every other call intact. -/
theorem invariant_of_meets {enter : ι → τ} {sect : σ → τ → κ → σ × τ}
    {C : Pool σ τ → Action ι κ → Prop} {I : σ → Prop} {J : σ → τ → Prop}
    (hcall : ∀ s arg, I s → J s (enter arg))
    (hself : ∀ s c env, I s → J s c →
      I (sect s c env).1 ∧ J (sect s c env).1 (sect s c env).2)
    (hother : ∀ p i j c d env, C p (.advance i env) → p.calls[i]? = some c →
      p.calls[j]? = some d → j ≠ i → Holds I J p → J (sect p.shared c env).1 d)
    {p : Pool σ τ} (hp : Holds I J p) {actions : List (Action ι κ)}
    (hmeets : Run.Meets (step enter sect) C p actions) :
    Holds I J (Run.run (step enter sect) p actions) := by
  refine Run.invariant_of_meets ?_ hp hmeets
  intro p action hp haction
  cases action with
  | call arg =>
    refine ⟨hp.shared, ?_⟩
    intro j d hd
    rcases getElem?_concat_cases hd with ⟨_, rfl⟩ | hold
    · exact hcall _ arg hp.shared
    · exact hp.calls j d hold
  | advance i env =>
    cases hc : p.calls[i]? with
    | none =>
      rw [step_advance_none hc]
      exact hp
    | some c =>
      rw [step_advance hc]
      obtain ⟨hI, hJ⟩ := hself p.shared c env hp.shared (hp.calls i c hc)
      refine ⟨hI, ?_⟩
      intro j d hd
      rcases getElem?_set_cases hd with ⟨_, rfl⟩ | ⟨hji, hold⟩
      · exact hJ
      · exact hother p i j c d env haction hc hold hji hp

section Exclusion

variable {α : Type} (key : τ → α) (busy : τ → Prop)

/-- No two calls with the same key are busy at once. -/
def Exclusive (p : Pool σ τ) : Prop :=
  ∀ (i j : Nat) c d, p.calls[i]? = some c → p.calls[j]? = some d → busy c → busy d →
    key c = key d → i = j

/-- No other call with the key of call `i` is busy. -/
def Alone (p : Pool σ τ) (i : Nat) : Prop :=
  ∀ c, p.calls[i]? = some c →
    ∀ (j : Nat) d, p.calls[j]? = some d → busy d → key d = key c → j = i

end Exclusion

/-- **Mutual exclusion.**  If a section keeps the key of its call, and makes it
busy only when no other call with that key is, then busy calls with one key
are one call. -/
theorem exclusive_of_meets {α : Type} {key : τ → α} {busy : τ → Prop} {enter : ι → τ}
    {sect : σ → τ → κ → σ × τ} {C : Pool σ τ → Action ι κ → Prop}
    (hcall : ∀ arg, ¬ busy (enter arg))
    (hkey : ∀ s c env, key (sect s c env).2 = key c)
    (hbusy : ∀ p i c env, C p (.advance i env) → p.calls[i]? = some c →
      busy (sect p.shared c env).2 → busy c ∨ Alone key busy p i)
    {p : Pool σ τ} (hp : Exclusive key busy p) {actions : List (Action ι κ)}
    (hmeets : Run.Meets (step enter sect) C p actions) :
    Exclusive key busy (Run.run (step enter sect) p actions) := by
  refine Run.invariant_of_meets ?_ hp hmeets
  intro p action hp haction
  cases action with
  | call arg =>
    intro i j c d hc hd hcb hdb hkeys
    rcases getElem?_concat_cases hc with ⟨_, rfl⟩ | hc
    · exact absurd hcb (hcall arg)
    · rcases getElem?_concat_cases hd with ⟨_, rfl⟩ | hd
      · exact absurd hdb (hcall arg)
      · exact hp i j c d hc hd hcb hdb hkeys
  | advance i env =>
    cases hc : p.calls[i]? with
    | none =>
      rw [step_advance_none hc]
      exact hp
    | some c =>
      rw [step_advance hc]
      -- the call that moved against any other busy call
      have hmoved : ∀ j d, p.calls[j]? = some d → busy d →
          busy (sect p.shared c env).2 → key d = key (sect p.shared c env).2 → j = i := by
        intro j d hd hdb hcb hkeys
        rw [hkey] at hkeys
        rcases hbusy p i c env haction hc hcb with hwas | halone
        · exact hp j i d c hd hc hdb hwas hkeys
        · exact halone c hc j d hd hdb hkeys
      intro j k d e hd he hdb heb hkeys
      rcases getElem?_set_cases hd with ⟨rfl, rfl⟩ | ⟨_, hd'⟩
      · rcases getElem?_set_cases he with ⟨rfl, rfl⟩ | ⟨_, he'⟩
        · rfl
        · exact (hmoved k e he' heb hdb hkeys.symm).symm
      · rcases getElem?_set_cases he with ⟨rfl, rfl⟩ | ⟨_, he'⟩
        · exact hmoved j d hd' hdb heb hkeys
        · exact hp j k d e hd' he' hdb heb hkeys

section Mutex

variable (locked : σ → Bool) (busy : τ → Prop)

/-- The sections respect a lock: a call becomes busy only by taking the lock
while it is free, and a section that does not change whether its call is busy
leaves the lock as it is. -/
structure RespectsLock (enter : ι → τ) (sect : σ → τ → κ → σ × τ) : Prop where
  enter : ∀ arg, ¬ busy (enter arg)
  take : ∀ s c env, ¬ busy c → busy (sect s c env).2 →
    locked s = false ∧ locked (sect s c env).1 = true
  keep : ∀ s c env, (busy c ↔ busy (sect s c env).2) → locked (sect s c env).1 = locked s

/-- The lock is taken while a call is busy, and at most one is. -/
structure Guarded (p : Pool σ τ) : Prop where
  taken : ∀ (i : Nat) c, p.calls[i]? = some c → busy c → locked p.shared = true
  alone : ∀ (i j : Nat) c d, p.calls[i]? = some c → p.calls[j]? = some d → busy c → busy d →
    i = j

variable {locked busy}

theorem Guarded.step {enter : ι → τ} {sect : σ → τ → κ → σ × τ}
    (hlock : RespectsLock locked busy enter sect) {p : Pool σ τ} (hp : Guarded locked busy p)
    (action : Action ι κ) : Guarded locked busy (p.step enter sect action) := by
  cases action with
  | call arg =>
    constructor
    · intro i c hc hbusy
      rcases getElem?_concat_cases hc with ⟨_, rfl⟩ | hc
      · exact absurd hbusy (hlock.enter arg)
      · exact hp.taken i c hc hbusy
    · intro i j c d hc hd hcb hdb
      rcases getElem?_concat_cases hc with ⟨_, rfl⟩ | hc
      · exact absurd hcb (hlock.enter arg)
      · rcases getElem?_concat_cases hd with ⟨_, rfl⟩ | hd
        · exact absurd hdb (hlock.enter arg)
        · exact hp.alone i j c d hc hd hcb hdb
  | advance i env =>
    cases hc : p.calls[i]? with
    | none =>
      rw [step_advance_none hc]
      exact hp
    | some c =>
      rw [step_advance hc]
      -- while another call is busy, the one that moves is not and does not become so
      have hidle : ∀ (j : Nat) d, p.calls[j]? = some d → j ≠ i → busy d →
          ¬ busy c ∧ ¬ busy (sect p.shared c env).2 := by
        intro j d hd hji hdb
        have hcb : ¬ busy c := fun hcb => hji (hp.alone j i d c hd hc hdb hcb)
        refine ⟨hcb, ?_⟩
        intro hbusy
        have hfree := (hlock.take p.shared c env hcb hbusy).1
        rw [hp.taken j d hd hdb] at hfree
        cases hfree
      constructor
      · intro j d hd hdb
        rcases getElem?_set_cases hd with ⟨_, rfl⟩ | ⟨hji, hd⟩
        · by_cases hcb : busy c
          · rw [hlock.keep p.shared c env (iff_of_true hcb hdb)]
            exact hp.taken i c hc hcb
          · exact (hlock.take p.shared c env hcb hdb).2
        · obtain ⟨hcb, hcb'⟩ := hidle j d hd hji hdb
          rw [hlock.keep p.shared c env (iff_of_false hcb hcb')]
          exact hp.taken j d hd hdb
      · intro j k d e hd he hdb heb
        rcases getElem?_set_cases hd with ⟨rfl, rfl⟩ | ⟨hji, hd'⟩
        · rcases getElem?_set_cases he with ⟨rfl, rfl⟩ | ⟨hki, he'⟩
          · rfl
          · exact absurd hdb (hidle k e he' hki heb).2
        · rcases getElem?_set_cases he with ⟨rfl, rfl⟩ | ⟨_, he'⟩
          · exact absurd heb (hidle j d hd' hji hdb).2
          · exact hp.alone j k d e hd' he' hdb heb

/-- **Mutex rule.**  Calls that respect a lock are busy one at a time. -/
theorem meets_guarded {enter : ι → τ} {sect : σ → τ → κ → σ × τ}
    (hlock : RespectsLock locked busy enter sect) {p : Pool σ τ} (hp : Guarded locked busy p)
    (actions : List (Action ι κ)) :
    Run.Meets (step enter sect) (fun p _ => Guarded locked busy p) p actions := by
  refine Run.meets_of_invariant ?_ ?_ hp actions
  · intro p action hp
    exact hp.step hlock action
  · intro p _ hp
    exact hp

end Mutex

end Pool

end ArkInfra
