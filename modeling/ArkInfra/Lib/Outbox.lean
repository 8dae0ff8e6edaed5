import Mathlib.Data.List.Nodup
import Mathlib.Data.List.Perm.Basic
import Mathlib.Logic.Relation

/-!
# Outboxes

Items are submitted, wait in a queue, and leave it by being sent or by being
evicted.  An item carries the number of its submission, so that it can be told
from another one with the same content.

In every run of an outbox the submitted items are those that were sent, those
that were evicted and those that wait, each exactly once, and the queue is in
the order of submission (`Valid`).  Items leave from the front; only an
`overtake` sends the last one past the others.  Without it the items are sent in
the order of submission (`InOrder`).
-/

namespace ArkInfra

structure Item (α : Type) where
  seq : Nat
  val : α
deriving DecidableEq, Repr

structure Outbox (α : Type) where
  submitted : List (Item α)
  queue : List (Item α)
  sent : List (Item α)
  evicted : List (Item α)

namespace Outbox

variable {α : Type}

def new : Outbox α where
  submitted := []
  queue := []
  sent := []
  evicted := []

/-- One move of an outbox.  Overtaking is possible only if `late` holds. -/
inductive Step (late : Prop) (o : Outbox α) : Outbox α → Prop
  | submit (x : α) :
      Step late o { o with
        submitted := o.submitted ++ [⟨o.submitted.length, x⟩]
        queue := o.queue ++ [⟨o.submitted.length, x⟩] }
  | deliver {x : Item α} {rest : List (Item α)} (hqueue : o.queue = x :: rest) :
      Step late o { o with queue := rest, sent := o.sent ++ [x] }
  | overtake {x : Item α} {front : List (Item α)} (hlate : late) (hqueue : o.queue = front ++ [x]) :
      Step late o { o with queue := front, sent := o.sent ++ [x] }
  | evict {x : Item α} {rest : List (Item α)} (hqueue : o.queue = x :: rest) :
      Step late o { o with queue := rest, evicted := o.evicted ++ [x] }

abbrev Steps (late : Prop) : Outbox α → Outbox α → Prop :=
  Relation.ReflTransGen (Step late)

/-- The items are in the order of submission. -/
def Increasing (items : List (Item α)) : Prop :=
  items.Pairwise (fun x y => x.seq < y.seq)

instance (items : List (Item α)) : Decidable (Increasing items) :=
  inferInstanceAs (Decidable (items.Pairwise _))

structure Valid (o : Outbox α) : Prop where
  numbered : o.submitted.map Item.seq = List.range o.submitted.length
  conserved : (o.sent ++ o.evicted ++ o.queue).Perm o.submitted
  ordered : Increasing o.queue

theorem valid_new : Valid (new : Outbox α) where
  numbered := rfl
  conserved := List.Perm.refl _
  ordered := List.Pairwise.nil

/-- An item that has been submitted has a smaller number than the next one. -/
theorem Valid.seq_lt {o : Outbox α} (h : o.Valid) {x : Item α} (hx : x ∈ o.submitted) :
    x.seq < o.submitted.length := by
  have hmem : x.seq ∈ o.submitted.map Item.seq := List.mem_map_of_mem hx
  rw [h.numbered] at hmem
  exact List.mem_range.mp hmem

theorem Valid.mem_submitted {o : Outbox α} (h : o.Valid) {x : Item α}
    (hx : x ∈ o.sent ∨ x ∈ o.evicted ∨ x ∈ o.queue) : x ∈ o.submitted := by
  rw [← h.conserved.mem_iff]
  simpa [or_assoc] using hx

theorem Valid.nodup {o : Outbox α} (h : o.Valid) : (o.sent ++ o.evicted ++ o.queue).Nodup := by
  have hseq : (o.submitted.map Item.seq).Nodup := by
    rw [h.numbered]
    exact List.nodup_range
  exact h.conserved.nodup_iff.mpr hseq.of_map

theorem increasing_concat {items : List (Item α)} {x : Item α} (h : Increasing items)
    (hx : ∀ y ∈ items, y.seq < x.seq) : Increasing (items ++ [x]) := by
  refine List.pairwise_append.mpr ⟨h, List.pairwise_singleton _ _, ?_⟩
  intro y hy z hz
  rw [List.mem_singleton.mp hz]
  exact hx y hy

/-- **A move keeps what holds.** -/
theorem Valid.step {late : Prop} {o o' : Outbox α} (h : o.Valid) (hstep : Step late o o') :
    o'.Valid := by
  cases hstep with
  | submit x =>
    refine ⟨?_, ?_, ?_⟩
    · simp [h.numbered, List.range_succ]
    · simp only [← List.append_assoc]
      exact h.conserved.append_right _
    · refine increasing_concat h.ordered ?_
      intro y hy
      exact h.seq_lt (h.mem_submitted (Or.inr (Or.inr hy)))
  | @deliver x rest hqueue =>
    have hperm := h.conserved
    have hordered := h.ordered
    rw [hqueue] at hperm hordered
    refine ⟨h.numbered, List.Perm.trans ?_ hperm, hordered.of_cons⟩
    simp only [List.append_assoc, List.singleton_append]
    exact List.Perm.append_left _ List.perm_middle.symm
  | @overtake x front hlate hqueue =>
    have hperm := h.conserved
    have hordered := h.ordered
    rw [hqueue] at hperm hordered
    refine ⟨h.numbered, List.Perm.trans ?_ hperm, (List.pairwise_append.mp hordered).1⟩
    have hmoved : (x :: (o.evicted ++ front)).Perm (o.evicted ++ front ++ [x]) :=
      (List.perm_append_singleton x _).symm
    simpa only [List.append_assoc, List.cons_append, List.nil_append] using
      hmoved.append_left o.sent
  | @evict x rest hqueue =>
    have hperm := h.conserved
    have hordered := h.ordered
    rw [hqueue] at hperm hordered
    refine ⟨h.numbered, ?_, hordered.of_cons⟩
    simpa only [List.append_assoc, List.singleton_append] using hperm

theorem Valid.steps {late : Prop} {o o' : Outbox α} (h : o.Valid) (hsteps : Steps late o o') :
    o'.Valid := by
  induction hsteps with
  | refl =>
    exact h
  | tail _ hstep ih =>
    exact ih.step hstep

/-- What has been sent and what waits, one after the other, are in the order of
submission. -/
def InOrder (o : Outbox α) : Prop :=
  Increasing (o.sent ++ o.queue)

theorem InOrder.sent {o : Outbox α} (h : o.InOrder) : Increasing o.sent :=
  (List.pairwise_append.mp h).1

/-- **Without overtaking the order is kept.** -/
theorem InOrder.step {o o' : Outbox α} (h : o.InOrder) (hvalid : o.Valid)
    (hstep : Step False o o') : o'.InOrder := by
  unfold InOrder at h ⊢
  cases hstep with
  | submit x =>
    rw [← List.append_assoc]
    refine increasing_concat h ?_
    intro y hy
    apply hvalid.seq_lt
    apply hvalid.mem_submitted
    rcases List.mem_append.mp hy with hsent | hqueue
    · exact Or.inl hsent
    · exact Or.inr (Or.inr hqueue)
  | @deliver x rest hqueue =>
    rw [hqueue] at h
    simpa only [List.append_assoc, List.singleton_append] using h
  | overtake hlate hqueue =>
    exact hlate.elim
  | @evict x rest hqueue =>
    rw [hqueue] at h
    refine List.Pairwise.sublist ?_ h
    exact (List.sublist_cons_self x rest).append_left o.sent

theorem InOrder.steps {o o' : Outbox α} (h : o.InOrder) (hvalid : o.Valid)
    (hsteps : Steps False o o') : o'.InOrder := by
  induction hsteps with
  | refl =>
    exact h
  | tail hbefore hstep ih =>
    exact ih.step (hvalid.steps hbefore) hstep

end Outbox

end ArkInfra
