import ArkInfra.Core.Event
import ArkInfra.Lib.HashMap
import ArkInfra.Lib.Run

/-!
# Event deduplication

`hub/src/dedup.rs`: the hub remembers the fingerprint and the timestamp of
every accepted event.  An arriving event first purges the entries that are
older than its own timestamp minus the window, and is rejected when its
fingerprint is still there.

The fingerprint feeds the fields of the event to the hasher of the standard
library, whose algorithm is unspecified; it is a parameter here.

What the store holds after a stream is described by the stream alone
(`lookup_storeAfter`): an entry is there exactly when an accepted event put it
there and no event offered since had a cutoff beyond it.
-/

namespace ArkInfra

namespace Dedup

structure HashedFields where
  ts : Nat
  eventType : String
  entityId : String
  jobId : Option String
  pid : Option Nat
  value : String
  nodeId : Option String
  deriving DecidableEq

/-- The fields of an event as they are hashed. -/
def hashedFields (event : Event) : HashedFields where
  ts := event.ts
  eventType := event.eventType.toText
  entityId := event.entityId
  jobId := event.jobId
  pid := event.pid
  value := event.value
  nodeId := event.nodeId

theorem hashedFields_injective : Function.Injective hashedFields := by
  intro a b h
  simp only [hashedFields, HashedFields.mk.injEq] at h
  obtain ⟨hts, htype, hentity, hjob, hpid, hvalue, hnode⟩ := h
  have htype' := EventType.toText_injective htype
  cases a
  cases b
  simp_all

/-- Timestamps by fingerprint. -/
abbrev DedupStore := HashMap UInt64 Nat

section Window

variable (hasher : HashedFields → UInt64)

def eventFingerprint (event : Event) : UInt64 :=
  hasher (hashedFields event)

def purge (cutoff : Nat) (store : DedupStore) : DedupStore :=
  HashMap.retain (fun _ ts => decide (ts ≥ cutoff)) store

/-- Purge the store, then accept the event unless its fingerprint is known. -/
def acceptEventWithDedup (event : Event) (store : DedupStore) (windowMs : Nat) :
    DedupStore × Bool :=
  let key := eventFingerprint hasher event
  let cutoff := event.ts - windowMs
  let store := purge cutoff store
  if key ∈ store then (store, false)
  else (store.insert key event.ts, true)

variable (windowMs : Nat)

/-- The store after a stream that started with an empty one. -/
def storeAfter (events : List Event) : DedupStore :=
  Run.run (fun store event => (acceptEventWithDedup hasher event store windowMs).1)
    ∅ events

/-- The verdict on an event that is offered after the given stream. -/
def accepts (events : List Event) (event : Event) : Bool :=
  (acceptEventWithDedup hasher event (storeAfter hasher windowMs events) windowMs).2

variable {hasher windowMs}

theorem storeAfter_concat (events : List Event) (event : Event) :
    storeAfter hasher windowMs (events ++ [event]) =
      (acceptEventWithDedup hasher event (storeAfter hasher windowMs events)
        windowMs).1 := by
  exact Run.run_concat _ _ _ _

theorem lookup_purge (cutoff : Nat) (store : DedupStore) (key : UInt64) (t : Nat) :
    (purge cutoff store).lookup key = some t ↔ store.lookup key = some t ∧ cutoff ≤ t := by
  unfold purge
  rw [HashMap.lookup_retain, Option.filter_eq_some_iff, decide_eq_true_eq]

theorem mem_purge (cutoff : Nat) (store : DedupStore) (key : UInt64) :
    key ∈ purge cutoff store ↔ ∃ t, store.lookup key = some t ∧ cutoff ≤ t := by
  rw [← AList.lookup_isSome, Option.isSome_iff_exists]
  simp only [lookup_purge]

theorem acceptEventWithDedup_known {event : Event} {store : DedupStore}
    (h : eventFingerprint hasher event ∈ purge (event.ts - windowMs) store) :
    acceptEventWithDedup hasher event store windowMs =
      (purge (event.ts - windowMs) store, false) := by
  exact if_pos h

theorem acceptEventWithDedup_fresh {event : Event} {store : DedupStore}
    (h : eventFingerprint hasher event ∉ purge (event.ts - windowMs) store) :
    acceptEventWithDedup hasher event store windowMs =
      ((purge (event.ts - windowMs) store).insert (eventFingerprint hasher event) event.ts,
        true) := by
  exact if_neg h

/-- An event is rejected when an entry with its fingerprint survives its own
purge. -/
theorem acceptEventWithDedup_snd_eq_false (event : Event) (store : DedupStore) :
    (acceptEventWithDedup hasher event store windowMs).2 = false ↔
      ∃ t, store.lookup (eventFingerprint hasher event) = some t ∧
        event.ts - windowMs ≤ t := by
  rw [← mem_purge]
  by_cases h : eventFingerprint hasher event ∈ purge (event.ts - windowMs) store
  · simp [acceptEventWithDedup_known h, h]
  · simp [acceptEventWithDedup_fresh h, h]

/-- The entries after an event: the survivors of its purge, and its own when it
was accepted. -/
theorem lookup_acceptEventWithDedup (event : Event) (store : DedupStore)
    (key : UInt64) (t : Nat) :
    (acceptEventWithDedup hasher event store windowMs).1.lookup key = some t ↔
      (store.lookup key = some t ∧ event.ts - windowMs ≤ t) ∨
      ((acceptEventWithDedup hasher event store windowMs).2 = true ∧
        eventFingerprint hasher event = key ∧ event.ts = t) := by
  rw [← lookup_purge]
  by_cases h : eventFingerprint hasher event ∈ purge (event.ts - windowMs) store
  · simp [acceptEventWithDedup_known h]
  · rw [acceptEventWithDedup_fresh h, HashMap.lookup_insert_ite]
    by_cases hkey : key = eventFingerprint hasher event
    · -- the fresh entry cannot overwrite a survivor: there is none under its key
      subst hkey
      simp [AList.lookup_eq_none.mpr h]
    · simp [hkey, Ne.symm hkey]

/-- Splitting a stream at one of its events either leaves the last event in the
rest, or is the split at the last event. -/
theorem concat_eq_append_cons {events a b : List Event} {e x : Event} :
    events ++ [e] = a ++ x :: b ↔
      (b = [] ∧ events = a ∧ e = x) ∨
      ∃ b', b = b' ++ [e] ∧ events = a ++ x :: b' := by
  constructor
  · intro h
    rcases List.eq_nil_or_concat b with rfl | ⟨b', y, rfl⟩
    · obtain ⟨h₁, h₂⟩ := List.append_inj' h rfl
      exact Or.inl ⟨rfl, h₁, by simpa using h₂⟩
    · have h' : events ++ [e] = (a ++ x :: b') ++ [y] := by
        simpa using h
      obtain ⟨h₁, h₂⟩ := List.append_inj' h' rfl
      obtain rfl : e = y := by simpa using h₂
      exact Or.inr ⟨b', by simp, h₁⟩
  · rintro (⟨rfl, rfl, rfl⟩ | ⟨b', rfl, rfl⟩)
    · rfl
    · simp

/-- **The content of the store.**  An entry is present exactly when an accepted
event wrote it and no event offered since had a later cutoff. -/
theorem lookup_storeAfter (events : List Event) (key : UInt64) (t : Nat) :
    (storeAfter hasher windowMs events).lookup key = some t ↔
      ∃ a x b, events = a ++ x :: b ∧
        accepts hasher windowMs a x = true ∧
        eventFingerprint hasher x = key ∧ x.ts = t ∧
        ∀ y ∈ b, y.ts - windowMs ≤ t := by
  induction events using List.reverseRecOn with
  | nil =>
    simp [storeAfter]
  | append_singleton events e ih =>
    rw [storeAfter_concat, lookup_acceptEventWithDedup, ih]
    constructor
    · rintro (⟨⟨a, x, b, rfl, hacc, hkey, hts, hb⟩, he⟩ | ⟨hacc, hkey, hts⟩)
      · refine ⟨a, x, b ++ [e], by simp, hacc, hkey, hts, ?_⟩
        intro y hy
        rcases List.mem_append.mp hy with hy | hy
        · exact hb y hy
        · obtain rfl : y = e := by simpa using hy
          exact he
      · exact ⟨events, e, [], by simp, hacc, hkey, hts, by simp⟩
    · rintro ⟨a, x, b, hsplit, hacc, hkey, hts, hb⟩
      rcases concat_eq_append_cons.mp hsplit with ⟨rfl, rfl, rfl⟩ | ⟨b', rfl, rfl⟩
      · exact Or.inr ⟨hacc, hkey, hts⟩
      · left
        refine ⟨⟨a, x, b', rfl, hacc, hkey, hts, ?_⟩, hb e (by simp)⟩
        intro y hy
        exact hb y (by simp [hy])

/-- An event is rejected exactly when an earlier accepted event has its
fingerprint and every event offered since, itself included, has a cutoff that
spares it. -/
theorem accepts_eq_false_iff (events : List Event) (e : Event) :
    accepts hasher windowMs events e = false ↔
      ∃ a x b, events = a ++ x :: b ∧
        accepts hasher windowMs a x = true ∧
        eventFingerprint hasher x = eventFingerprint hasher e ∧
        ∀ y ∈ b ++ [e], y.ts - windowMs ≤ x.ts := by
  unfold accepts
  rw [acceptEventWithDedup_snd_eq_false]
  constructor
  · rintro ⟨t, ht, he⟩
    obtain ⟨a, x, b, hsplit, hacc, hkey, rfl, hb⟩ := (lookup_storeAfter events _ t).mp ht
    refine ⟨a, x, b, hsplit, hacc, hkey, ?_⟩
    intro y hy
    rcases List.mem_append.mp hy with hy | hy
    · exact hb y hy
    · obtain rfl : y = e := by simpa using hy
      exact he
  · rintro ⟨a, x, b, hsplit, hacc, hkey, hb⟩
    refine ⟨x.ts, (lookup_storeAfter events _ _).mpr ?_, hb e (by simp)⟩
    exact ⟨a, x, b, hsplit, hacc, hkey, rfl, fun y hy => hb y (by simp [hy])⟩

/-- The hasher separates the events of a stream: what it maps to one
fingerprint was fed identically. -/
def CollisionFree (hasher : HashedFields → UInt64) (events : List Event) : Prop :=
  ∀ a ∈ events, ∀ b ∈ events,
    eventFingerprint hasher a = eventFingerprint hasher b →
      hashedFields a = hashedFields b

/-- **Exact behaviour of the dedup window** on an event `e` offered after the
stream `events`.  The second and third parts are the two readings of the first:
no double acceptance inside the window, and no rejection of a new event. -/
theorem dedupWindow_exact (hasher : HashedFields → UInt64) (windowMs : Nat)
    (events : List Event) (e : Event) :
    (accepts hasher windowMs events e = false ↔
      ∃ a x b, events = a ++ x :: b ∧
        accepts hasher windowMs a x = true ∧
        eventFingerprint hasher x = eventFingerprint hasher e ∧
        ∀ y ∈ b ++ [e], y.ts - windowMs ≤ x.ts) ∧
    (∀ a b, events = a ++ e :: b →
      accepts hasher windowMs a e = true →
      (∀ y ∈ b, y.ts ≤ e.ts + windowMs) →
      accepts hasher windowMs events e = false) ∧
    (CollisionFree hasher (events ++ [e]) →
      accepts hasher windowMs events e = false →
      ∃ a b, events = a ++ e :: b ∧ accepts hasher windowMs a e = true) := by
  refine ⟨accepts_eq_false_iff events e, ?_, ?_⟩
  · intro a b hsplit hacc hb
    refine (accepts_eq_false_iff events e).mpr ⟨a, e, b, hsplit, hacc, rfl, ?_⟩
    intro y hy
    rcases List.mem_append.mp hy with hy | hy
    · have := hb y hy
      omega
    · obtain rfl : y = e := by simpa using hy
      omega
  · intro hfree hrej
    obtain ⟨a, x, b, hsplit, hacc, hkey, _⟩ := (accepts_eq_false_iff events e).mp hrej
    have hmem : x ∈ events ++ [e] := by
      rw [hsplit]
      simp
    obtain rfl : x = e := hashedFields_injective (hfree x hmem e (by simp) hkey)
    exact ⟨a, b, hsplit, hacc⟩

end Window

/-- The second copy of an event is rejected although an unrelated later event
was offered in between, and the stream holds an accepted copy of it. -/
theorem dedupWindow_exact_secondCopy :
    let hasher : HashedFields → UInt64 := fun fields => fields.ts.toUInt64
    let e : Event := ⟨1000, .errorHw, "gpu-0", none, none, "XID_79", some "node-a"⟩
    let other : Event := ⟨5000, .computeUtil, "gpu-1", none, none, "95", some "node-b"⟩
    accepts hasher 5000 [e, other] e = false ∧
    ∃ a b, [e, other] = a ++ e :: b ∧ accepts hasher 5000 a e = true := by
  intro hasher e other
  have hexact := dedupWindow_exact hasher 5000 [e, other] e
  have hrejected : accepts hasher 5000 [e, other] e = false :=
    hexact.2.1 [] [other] rfl (by decide) (by decide)
  have hfree : CollisionFree hasher ([e, other] ++ [e]) := by
    unfold CollisionFree
    decide
  exact ⟨hrejected, hexact.2.2 hfree hrejected⟩

end Dedup

end ArkInfra
