import ArkInfra.Hub.ExecuteGuard
import ArkInfra.Lib.Interleave

/-!
# Concurrent requests at the cooldown

Every request for execution takes its time when it arrives and asks the guard
much later, so the guard meets the times in any order.  The table of the guard
is behind a mutex; a call of `check_and_record_cooldown` locks it, looks for the
last time of its key, compares, and records its own time before it unlocks.
Here these are separate sections between which other calls may run.

The lock makes them one: when a call decides, the time it has read is still the
one in the table, and the call is the atomic `checkAndRecordCooldown` of the
guard (`runSection_checked`).  `cooldown_spacing` follows from what a cooldown
gate does over any sequence of requests.
-/

namespace ArkInfra

structure CooldownRequest where
  nodeId : String
  action : String
  nowMs : Nat
deriving DecidableEq, Repr

def CooldownRequest.key (r : CooldownRequest) : String :=
  ExecuteGuard.cooldownKey r.nodeId r.action

/-- How far a call has come: it waits for the lock, has it, has read the last
time of its key, or has returned. -/
inductive CooldownPhase where
  | waiting
  | holding
  | checked (prev : Option Nat)
  | granted
  | refused (error : String)
deriving DecidableEq, Repr

structure CooldownCall where
  request : CooldownRequest
  phase : CooldownPhase
deriving DecidableEq, Repr

structure LockedGuard where
  guard : ExecuteGuard
  locked : Bool

namespace CooldownCall

def enter (request : CooldownRequest) : CooldownCall where
  request := request
  phase := .waiting

/-- The call is between taking and returning the lock. -/
def Holds (c : CooldownCall) : Prop :=
  c.phase = .holding ∨ ∃ prev, c.phase = .checked prev

end CooldownCall

namespace LockedGuard

/-- Run the next section of a call. -/
def runSection (s : LockedGuard) (c : CooldownCall) (_ : Unit) : LockedGuard × CooldownCall :=
  let key := c.request.key
  let nowMs := c.request.nowMs
  let refuse : LockedGuard × CooldownCall :=
    ({ s with locked := false },
      { c with phase := .refused ("cooldown_active:" ++ toString s.guard.cooldownS ++ "s") })
  let grant : LockedGuard × CooldownCall :=
    ({ guard := { s.guard with lastActionMs := s.guard.lastActionMs.insert key nowMs }
       locked := false },
      { c with phase := .granted })
  match c.phase with
  | .waiting =>
    if s.locked then (s, c) else ({ s with locked := true }, { c with phase := .holding })
  | .holding => (s, { c with phase := .checked (s.guard.lastActionMs.lookup key) })
  | .checked (some prev) => if nowMs - prev < s.guard.cooldownMs then refuse else grant
  | .checked none => grant
  | .granted | .refused _ => (s, c)

inductive SectionOf (s : LockedGuard) (c : CooldownCall) : LockedGuard → CooldownCall → Prop
  | wait (hphase : c.phase = .waiting) (hlocked : s.locked = true) : SectionOf s c s c
  | lock (hphase : c.phase = .waiting) (hlocked : s.locked = false) :
      SectionOf s c { s with locked := true } { c with phase := .holding }
  | read (hphase : c.phase = .holding) :
      SectionOf s c s { c with phase := .checked (s.guard.lastActionMs.lookup c.request.key) }
  | refuse (prev : Nat) (hphase : c.phase = .checked (some prev))
      (hcool : c.request.nowMs - prev < s.guard.cooldownMs) (error : String) :
      SectionOf s c { s with locked := false } { c with phase := .refused error }
  | grant (prev : Option Nat) (hphase : c.phase = .checked prev)
      (hcool : ∀ t ∈ prev, s.guard.cooldownMs ≤ c.request.nowMs - t) :
      SectionOf s c
        { guard := { s.guard with
            lastActionMs := s.guard.lastActionMs.insert c.request.key c.request.nowMs }
          locked := false }
        { c with phase := .granted }
  | returned (hphase : c.phase = .granted ∨ ∃ e, c.phase = .refused e) : SectionOf s c s c

theorem sectionOf (s : LockedGuard) (c : CooldownCall) (env : Unit) :
    SectionOf s c (s.runSection c env).1 (s.runSection c env).2 := by
  unfold runSection
  cases hphase : c.phase with
  | waiting =>
    cases hlocked : s.locked with
    | true => simpa [hphase, hlocked] using SectionOf.wait hphase hlocked
    | false => simpa [hphase, hlocked] using SectionOf.lock hphase hlocked
  | holding => simpa [hphase] using SectionOf.read hphase
  | checked prev =>
    cases prev with
    | none => exact .grant none hphase (by simp)
    | some prev =>
      dsimp only
      split_ifs with hcool
      · exact .refuse prev hphase hcool _
      · refine .grant (some prev) hphase ?_
        rintro _ ⟨rfl⟩
        exact Nat.le_of_not_lt hcool
  | granted => exact .returned (Or.inl hphase)
  | refused e => exact .returned (Or.inr ⟨e, hphase⟩)

theorem respectsLock :
    Pool.RespectsLock LockedGuard.locked CooldownCall.Holds CooldownCall.enter runSection where
  enter := by
    intro request hholds
    rcases hholds with h | ⟨_, h⟩
    · cases h
    · cases h
  take := by
    intro s c env hfree hholds
    have hsection := s.sectionOf c env
    generalize (s.runSection c env).1 = s' at *
    generalize (s.runSection c env).2 = c' at *
    cases hsection with
    | lock hphase hlocked => exact ⟨hlocked, rfl⟩
    | read hphase => exact absurd (Or.inl hphase) hfree
    | refuse prev hphase _ _ => exact absurd (Or.inr ⟨_, hphase⟩) hfree
    | grant prev hphase _ => exact absurd (Or.inr ⟨_, hphase⟩) hfree
    | wait _ _ | returned _ => exact absurd hholds hfree
  keep := by
    intro s c env hsame
    have hsection := s.sectionOf c env
    generalize (s.runSection c env).1 = s' at *
    generalize (s.runSection c env).2 = c' at *
    cases hsection with
    | lock hphase _ =>
      have hholds : c.Holds := hsame.mpr (Or.inl rfl)
      simp [CooldownCall.Holds, hphase] at hholds
    | refuse prev hphase _ _ =>
      have hholds := hsame.mp (Or.inr ⟨_, hphase⟩)
      simp [CooldownCall.Holds] at hholds
    | grant prev hphase _ =>
      have hholds := hsame.mp (Or.inr ⟨_, hphase⟩)
      simp [CooldownCall.Holds] at hholds
    | wait _ _ | read _ | returned _ => rfl

def ReadsTable (s : LockedGuard) (c : CooldownCall) : Prop :=
  ∀ prev, c.phase = .checked prev → prev = s.guard.lastActionMs.lookup c.request.key

theorem guard_of_not_holds {s : LockedGuard} {c : CooldownCall} (env : Unit)
    (h : ¬ c.Holds) : (s.runSection c env).1.guard = s.guard := by
  have hsection := s.sectionOf c env
  generalize (s.runSection c env).1 = s' at *
  generalize (s.runSection c env).2 = c' at *
  cases hsection with
  | grant prev hphase _ => exact absurd (Or.inr ⟨_, hphase⟩) h
  | wait _ _ | lock _ _ | read _ | refuse _ _ _ _ | returned _ => rfl

theorem readsTable_self {s : LockedGuard} {c : CooldownCall} (env : Unit)
    (h : s.ReadsTable c) : (s.runSection c env).1.ReadsTable (s.runSection c env).2 := by
  have hsection := s.sectionOf c env
  generalize (s.runSection c env).1 = s' at *
  generalize (s.runSection c env).2 = c' at *
  intro prev hprev
  cases hsection with
  | read _ =>
    cases hprev
    rfl
  | lock _ _ | refuse _ _ _ _ | grant _ _ _ => cases hprev
  | wait _ _ | returned _ => exact h prev hprev

@[simp] theorem cooldownMs_runSection (s : LockedGuard) (c : CooldownCall) (env : Unit) :
    (s.runSection c env).1.guard.cooldownMs = s.guard.cooldownMs := by
  have hsection := s.sectionOf c env
  generalize (s.runSection c env).1 = s' at *
  generalize (s.runSection c env).2 = c' at *
  cases hsection <;> rfl

/-- **The lock makes a call atomic.**  A call that has read the table decides as
`checkAndRecordCooldown` does on the guard of that moment. -/
theorem runSection_checked {s : LockedGuard} {c : CooldownCall} {prev : Option Nat}
    (hphase : c.phase = .checked prev) (hread : s.ReadsTable c) (env : Unit) :
    (∃ guard,
      s.guard.checkAndRecordCooldown c.request.nodeId c.request.action c.request.nowMs =
        .ok guard ∧
      s.runSection c env = (⟨guard, false⟩, { c with phase := .granted })) ∨
    ∃ e,
      s.guard.checkAndRecordCooldown c.request.nodeId c.request.action c.request.nowMs =
        .error e ∧
      s.runSection c env = (⟨s.guard, false⟩, { c with phase := .refused e }) := by
  have hprev := hread prev hphase
  unfold runSection ExecuteGuard.checkAndRecordCooldown
  simp only [hphase]
  change _ = s.guard.lastActionMs.lookup (ExecuteGuard.cooldownKey _ _) at hprev
  rw [← hprev]
  cases prev with
  | none => exact Or.inl ⟨_, rfl, rfl⟩
  | some prev =>
    dsimp only
    split_ifs with hcool
    · exact Or.inr ⟨_, rfl, rfl⟩
    · exact Or.inl ⟨_, rfl, rfl⟩

end LockedGuard

abbrev CooldownPool := Pool LockedGuard CooldownCall

/-- A call arrives, or a call runs its next section. -/
abbrev CooldownAction := Pool.Action CooldownRequest Unit

namespace CooldownPool

def start (guard : ExecuteGuard) : CooldownPool where
  shared := { guard := guard, locked := false }
  calls := []

def step (p : CooldownPool) (action : CooldownAction) : CooldownPool :=
  Pool.step CooldownCall.enter LockedGuard.runSection p action

def table (p : CooldownPool) : HashMap String Nat :=
  p.shared.guard.lastActionMs

def grantedBy (p : CooldownPool) : CooldownAction → Option CooldownRequest
  | .call _ => none
  | .advance i env =>
    match p.calls[i]? with
    | none => none
    | some c =>
      if c.phase ≠ .granted ∧ (p.shared.runSection c env).2.phase = .granted then
        some c.request
      else
        none

theorem grantedBy_advance {p : CooldownPool} {i : Nat} {c : CooldownCall}
    (hc : p.calls[i]? = some c) (env : Unit) :
    p.grantedBy (.advance i env) =
      if c.phase ≠ .granted ∧ (p.shared.runSection c env).2.phase = .granted then
        some c.request
      else
        none := by
  simp only [grantedBy, hc]

theorem step_advance {p : CooldownPool} {i : Nat} {c : CooldownCall}
    (hc : p.calls[i]? = some c) (env : Unit) :
    p.step (.advance i env) =
      { shared := (p.shared.runSection c env).1
        calls := p.calls.set i (p.shared.runSection c env).2 } := by
  exact Pool.step_advance hc env

theorem step_advance_none {p : CooldownPool} {i : Nat} (hc : p.calls[i]? = none) (env : Unit) :
    p.step (.advance i env) = p := by
  exact Pool.step_advance_none hc env

def grants (p : CooldownPool) : List CooldownAction → List CooldownRequest
  | [] => []
  | action :: actions => (p.grantedBy action).toList ++ grants (p.step action) actions

theorem grants_concat (p : CooldownPool) (actions : List CooldownAction)
    (action : CooldownAction) :
    p.grants (actions ++ [action]) =
      p.grants actions ++ ((Run.run step p actions).grantedBy action).toList := by
  induction actions generalizing p with
  | nil =>
    simp [grants]
  | cons first actions ih =>
    simp [grants, ih]

/-- In every reachable pool the cooldown is that of the guard, and what a call
has read is in the table. -/
theorem holds_run (guard : ExecuteGuard) (actions : List CooldownAction) :
    Pool.Holds (fun s : LockedGuard => s.guard.cooldownMs = guard.cooldownMs)
      LockedGuard.ReadsTable (Run.run step (start guard) actions) := by
  have hfree : Pool.Guarded LockedGuard.locked CooldownCall.Holds (start guard) := by
    constructor <;> simp [start]
  refine Pool.invariant_of_meets ?_ ?_ ?_ ?_
    (Pool.meets_guarded LockedGuard.respectsLock hfree actions)
  · intro s request _ prev hprev
    cases hprev
  · intro s c env hs hc
    exact ⟨by simpa using hs, LockedGuard.readsTable_self env hc⟩
  · intro p i j c d env hguarded hc hd hji hp prev hprev
    -- the call that has read holds the lock, so the one that runs does not
    have hfree : ¬ c.Holds := by
      intro hholds
      exact hji (hguarded.alone j i d c hd hc (Or.inr ⟨prev, hprev⟩) hholds)
    rw [LockedGuard.guard_of_not_holds env hfree]
    exact hp.calls j d hd prev hprev
  · refine ⟨rfl, ?_⟩
    intro j d hd
    simp [start] at hd

/-- **One action** grants a request as the gate of the cooldown does, or leaves
the table alone. -/
theorem table_step {p : CooldownPool} {cooldown : Nat}
    (hp : Pool.Holds (fun s : LockedGuard => s.guard.cooldownMs = cooldown)
      LockedGuard.ReadsTable p) (action : CooldownAction) :
    (p.grantedBy action = none ∧ (p.step action).table = p.table) ∨
      ∃ r, p.grantedBy action = some r ∧
        Cooldown.grant cooldown r.nowMs p.table r.key = some (p.step action).table := by
  cases action with
  | call request =>
    exact Or.inl ⟨rfl, rfl⟩
  | advance i env =>
    cases hc : p.calls[i]? with
    | none =>
      rw [step_advance_none hc]
      exact Or.inl ⟨by simp only [grantedBy, hc], rfl⟩
    | some c =>
      rw [grantedBy_advance hc, step_advance hc]
      have hread := hp.calls i c hc
      have hcooldown := hp.shared
      have hsection := p.shared.sectionOf c env
      generalize (p.shared.runSection c env).1 = s' at *
      generalize (p.shared.runSection c env).2 = c' at *
      cases hsection with
      | grant prev hphase hcool =>
        refine Or.inr ⟨c.request, by simp [hphase], ?_⟩
        rw [hread prev hphase, hcooldown] at hcool
        rcases Cooldown.grant_cases cooldown c.request.nowMs p.shared.guard.lastActionMs
          c.request.key with ⟨hgrant, _⟩ | ⟨_, t, ht, hlate⟩
        · exact hgrant
        · exact absurd hlate (Nat.not_lt.mpr (hcool t ht))
      | wait _ _ | lock _ _ | read _ | refuse _ _ _ _ | returned _ =>
        exact Or.inl ⟨by simp, rfl⟩

/-- **Every run**: the grants of one key are the cooldown apart. -/
theorem spaced_grants (guard : ExecuteGuard) (hcooldown : 0 < guard.cooldownMs)
    (actions : List CooldownAction) :
    Cooldown.Spaced guard.cooldownMs
        (((start guard).grants actions).map fun r => (r.key, r.nowMs)) ∧
      Cooldown.Remembers (Run.run step (start guard) actions).table
        (((start guard).grants actions).map fun r => (r.key, r.nowMs)) := by
  induction actions using List.reverseRecOn with
  | nil =>
    exact ⟨Cooldown.spaced_nil, Cooldown.remembers_nil _⟩
  | append_singleton actions action ih =>
    obtain ⟨hspaced, hlast⟩ := ih
    rw [grants_concat, Run.run_concat, List.map_append]
    rcases table_step (holds_run guard actions) action with ⟨hnone, hsame⟩ | ⟨r, hr, hgrant⟩
    · rw [hnone, hsame]
      simpa using ⟨hspaced, hlast⟩
    · rw [hr]
      exact Cooldown.spaced_concat hcooldown hspaced hlast hgrant

/-- The call with the number has been granted. -/
def Granted (p : CooldownPool) (i : Nat) : Prop :=
  ∃ c, p.calls[i]? = some c ∧ c.phase = .granted

theorem granted_step {p : CooldownPool} {i : Nat} (h : p.Granted i) (action : CooldownAction) :
    (p.step action).Granted i := by
  obtain ⟨c, hc, hphase⟩ := h
  have hlt : i < p.calls.length := (List.getElem?_eq_some_iff.mp hc).1
  cases action with
  | call request =>
    exact ⟨c, (List.getElem?_append_left hlt).trans hc, hphase⟩
  | advance j env =>
    cases hd : p.calls[j]? with
    | none =>
      rw [step_advance_none hd]
      exact ⟨c, hc, hphase⟩
    | some d =>
      rw [step_advance hd]
      by_cases hij : j = i
      · subst hij
        obtain rfl : c = d := Option.some.inj (hc.symm.trans hd)
        refine ⟨_, List.getElem?_set_self hlt, ?_⟩
        simp [LockedGuard.runSection, hphase]
      · exact ⟨c, (List.getElem?_set_ne hij).trans hc, hphase⟩

theorem granted_of_grantedBy {p : CooldownPool} {i : Nat} {env : Unit} {r : CooldownRequest}
    (h : p.grantedBy (.advance i env) = some r) : (p.step (.advance i env)).Granted i := by
  cases hc : p.calls[i]? with
  | none =>
    simp [grantedBy, hc] at h
  | some c =>
    rw [grantedBy_advance hc] at h
    split_ifs at h with hgranted
    rw [step_advance hc]
    have hlt : i < p.calls.length := (List.getElem?_eq_some_iff.mp hc).1
    exact ⟨_, List.getElem?_set_self hlt, hgranted.2⟩

theorem table_of_refused (guard : ExecuteGuard) {seen rest : List CooldownAction} {i : Nat}
    {env : Unit} {c : CooldownCall} {e : String}
    (hc : (Run.run step (start guard) (seen ++ .advance i env :: rest)).calls[i]? = some c)
    (hrefused : c.phase = .refused e) :
    (Run.run step (start guard) (seen ++ [.advance i env])).table =
      (Run.run step (start guard) seen).table := by
  rw [Run.run_concat]
  rcases table_step (holds_run guard seen) (.advance i env) with ⟨_, hsame⟩ | ⟨r, hr, _⟩
  · exact hsame
  · have hend : (Run.run step (start guard) (seen ++ .advance i env :: rest)).Granted i := by
      rw [Run.run_append, Run.run_cons]
      refine Run.invariant (I := fun p : CooldownPool => p.Granted i) ?_
        (granted_of_grantedBy hr) rest
      intro p action hp
      exact granted_step hp action
    obtain ⟨d, hd, hgranted⟩ := hend
    obtain rfl : c = d := Option.some.inj (hc.symm.trans hd)
    rw [hrefused] at hgranted
    cases hgranted

/-- **Cooldown spacing.**  For every guard with a cooldown and every interleaving
of concurrent calls, whatever their times: the times of the successive grants
for one node and action increase, and any two of them are at least the cooldown
apart; and no section of a call that is refused changes the table. -/
theorem cooldown_spacing (guard : ExecuteGuard) (hcooldown : 0 < guard.cooldownMs)
    (actions : List CooldownAction) :
    (∀ nodeId action,
      (((start guard).grants actions).filter
          fun r => decide (r.nodeId = nodeId ∧ r.action = action)).Pairwise
        fun a b => a.nowMs < b.nowMs ∧ guard.cooldownMs ≤ b.nowMs - a.nowMs) ∧
    ∀ seen i env rest c e, actions = seen ++ .advance i env :: rest →
      (Run.run step (start guard) actions).calls[i]? = some c → c.phase = .refused e →
      (Run.run step (start guard) (seen ++ [.advance i env])).table =
        (Run.run step (start guard) seen).table := by
  constructor
  · intro nodeId action
    have hspaced := List.pairwise_map.mp (spaced_grants guard hcooldown actions).1
    refine List.Pairwise.imp_of_mem ?_ (hspaced.filter _)
    intro a b ha hb hgap
    have hpair := of_decide_eq_true (List.mem_filter.mp ha).2
    have hpair' := of_decide_eq_true (List.mem_filter.mp hb).2
    have hkey : a.key = b.key := by
      unfold CooldownRequest.key
      rw [hpair.1, hpair.2, hpair'.1, hpair'.2]
    have hle := hgap hkey
    constructor
    · omega
    · omega
  · rintro seen i env rest c e rfl hc hrefused
    exact table_of_refused guard hc hrefused

/-- Three calls for one node that arrive out of order: the second one waits for
the lock and is refused, the third one comes after the cooldown. -/
theorem cooldown_spacing_outOfOrder :
    let guard := ExecuteGuard.new 2 60 5
    let first : CooldownRequest := ⟨"node-a", "KillProcess", 100000⟩
    let early : CooldownRequest := ⟨"node-a", "KillProcess", 90000⟩
    let late : CooldownRequest := ⟨"node-a", "KillProcess", 160000⟩
    let seen : List CooldownAction :=
      [.call first, .call early, .advance 0 (), .advance 1 (), .advance 0 (), .call late,
        .advance 0 (), .advance 1 (), .advance 1 ()]
    let rest : List CooldownAction := [.advance 2 (), .advance 2 (), .advance 2 ()]
    let actions := seen ++ .advance 1 () :: rest
    (start guard).grants actions = [first, late] ∧
    ((((start guard).grants actions).filter
          fun r => decide (r.nodeId = "node-a" ∧ r.action = "KillProcess")).Pairwise
        fun a b => a.nowMs < b.nowMs ∧ guard.cooldownMs ≤ b.nowMs - a.nowMs) ∧
    (Run.run step (start guard) actions).calls[1]? =
      some ⟨early, .refused "cooldown_active:60s"⟩ ∧
    (Run.run step (start guard) (seen ++ [.advance 1 ()])).table =
      (Run.run step (start guard) seen).table := by
  intro guard first early late seen rest actions
  have hrefused : (Run.run step (start guard) actions).calls[1]? =
      some ⟨early, .refused "cooldown_active:60s"⟩ := by
    decide +kernel
  obtain ⟨hspaced, htable⟩ := cooldown_spacing guard (by decide) actions
  exact ⟨by decide +kernel, hspaced "node-a" "KillProcess", hrefused,
    htable seen 1 () rest _ _ rfl hrefused rfl⟩

end CooldownPool

end ArkInfra
