import ArkInfra.Hub.Operator

/-!
# Runs of the remediation operator

The phase on the server is the only memory of what has been done, and the
results of the status patches are discarded.  `executedOnce_iff` says which runs
execute every request at most once: after a poll that loses both patches of a
request it executes, no listing may succeed.

A listing is limited to the first objects, and the rest is never asked for, so
what stands behind them is never touched (`drop_run`).  The status patches are
merge patches with the force flag.  `noneWaiting_iff` says when a pass leaves no
request waiting: the client sends such patches and all waiting objects are among
the first.  A client that forces apply patches only sends none of them, and then
a request that is waiting before the pass is waiting after it.
-/

namespace ArkInfra

section AtMostOnce

open RemediationRequest

/-- The names of the objects that are executed when they take their turns. -/
def requestsOf (objs : List RemediationRequest) : List String :=
  (objs.filterMap actionOf).map OperatorAction.request

theorem mem_requestsOf {objs : List RemediationRequest} {name : String} :
    name ∈ requestsOf objs ↔
      ∃ obj ∈ objs, ∃ action, obj.actionOf = some action ∧ action.request = name := by
  simp only [requestsOf, List.mem_map, List.mem_filterMap]
  constructor
  · rintro ⟨action, ⟨obj, hobj, haction⟩, rfl⟩
    exact ⟨obj, hobj, action, haction, rfl⟩
  · rintro ⟨obj, hobj, action, haction, rfl⟩
    exact ⟨action, ⟨obj, hobj, haction⟩, rfl⟩

theorem requestsOf_sublist_names (objs : List RemediationRequest) :
    (requestsOf objs).Sublist
      ((objs.map requestName).filter fun name => decide (name ≠ "")) := by
  unfold requestsOf
  induction objs with
  | nil =>
    exact List.Sublist.slnil
  | cons obj objs ih =>
    rw [List.map_cons, List.filterMap_cons]
    cases haction : obj.actionOf with
    | none =>
      exact ih.trans ((List.sublist_cons_self _ _).filter _)
    | some action =>
      obtain ⟨hrequest, hname⟩ := requestName_of_actionOf haction
      rw [List.filter_cons_of_pos (by simpa using hname)]
      simp only [List.map_cons, hrequest]
      exact ih.cons_cons _

namespace Operator

variable {client : KubeClient}

/-- The names of the requests that have been executed. -/
def executedNames (s : Operator) : List String :=
  s.executed.map OperatorAction.request

/-- Every request has been executed at most once. -/
def ExecutedOnce (s : Operator) : Prop :=
  s.executedNames.Nodup

instance (s : Operator) : Decidable s.ExecutedOnce :=
  inferInstanceAs (Decidable s.executedNames.Nodup)

/-- The poll executes a request and loses both of its status patches. -/
def Loses (client : KubeClient) (s : Operator) (p : Poll) : Prop :=
  p.listed = true ∧ ∃ obj ∈ s.store.objects.take listLimit, obj.actionOf ≠ none ∧ obj.Lost client p

/-- No request that is still to be executed has been. -/
structure Fresh (s : Operator) : Prop where
  once : s.ExecutedOnce
  unexecuted : ∀ obj ∈ s.store.objects, ∀ action ∈ obj.actionOf,
    action.request ∉ s.executedNames

theorem executedNames_poll {p : Poll} (h : p.listed = true) (s : Operator) :
    (s.poll client p).executedNames =
      s.executedNames ++ requestsOf (s.store.objects.take listLimit) := by
  rw [executedNames, (poll_listed h s).2, List.map_append]
  rfl

theorem requests_apart (s : Operator) :
    (requestsOf (s.store.objects.take listLimit)).Nodup ∧
      ∀ obj ∈ s.store.objects.drop listLimit, ∀ action ∈ obj.actionOf,
        action.request ∉ requestsOf (s.store.objects.take listLimit) := by
  have hunique := s.store.unique
  rw [← List.take_append_drop listLimit s.store.objects, List.map_append, List.filter_append,
    List.nodup_append] at hunique
  obtain ⟨hfront, -, hapart⟩ := hunique
  refine ⟨hfront.sublist (requestsOf_sublist_names _), ?_⟩
  intro obj hobj action haction hmem
  obtain ⟨hrequest, hname⟩ := requestName_of_actionOf haction
  refine hapart _ ((requestsOf_sublist_names _).subset hmem) _ ?_ rfl
  exact List.mem_filter.mpr ⟨List.mem_map.mpr ⟨obj, hobj, hrequest.symm⟩, by
    simpa [hrequest] using hname⟩

theorem Fresh.executedOnce_poll {s : Operator} (h : s.Fresh) (p : Poll) :
    (s.poll client p).ExecutedOnce := by
  cases hlisted : p.listed with
  | false =>
    rw [poll_unlisted hlisted]
    exact h.once
  | true =>
    rw [ExecutedOnce, executedNames_poll hlisted, List.nodup_append]
    refine ⟨h.once, (requests_apart s).1, ?_⟩
    rintro name hold _ hnew rfl
    obtain ⟨obj, hobj, action, haction, rfl⟩ := mem_requestsOf.mp hnew
    exact h.unexecuted obj (List.mem_of_mem_take hobj) action haction hold

/-- **One poll.**  A poll that loses no execution keeps the state fresh. -/
theorem Fresh.after_poll {s : Operator} (h : s.Fresh) {p : Poll} (hkeeps : ¬ s.Loses client p) :
    (s.poll client p).Fresh := by
  refine ⟨h.executedOnce_poll p, ?_⟩
  cases hlisted : p.listed with
  | false =>
    rw [poll_unlisted hlisted]
    exact h.unexecuted
  | true =>
    rw [(poll_listed hlisted s).1, executedNames_poll hlisted]
    intro obj hobj action haction hmem
    rcases List.mem_append.mp hobj with hobj | hobj
    · obtain ⟨old, hold, rfl⟩ := List.mem_map.mp hobj
      obtain ⟨hexecuted, hlost⟩ := lost_of_actionOf_handled haction
      exact hkeeps ⟨hlisted, old, hold, by simp [hexecuted], hlost⟩
    · rcases List.mem_append.mp hmem with hmem | hmem
      · exact h.unexecuted obj (List.mem_of_mem_drop hobj) action haction hmem
      · exact (requests_apart s).2 obj hobj action haction hmem

theorem executedNames_sublist_run (s : Operator) (polls : List Poll) :
    s.executedNames.Sublist (Run.run (poll client) s polls).executedNames := by
  refine Run.invariant (I := fun s' : Operator => s.executedNames.Sublist s'.executedNames) ?_
    (List.Sublist.refl _) polls
  intro s' p h
  cases hlisted : p.listed with
  | false =>
    rwa [poll_unlisted hlisted]
  | true =>
    rw [executedNames_poll hlisted]
    exact h.trans (List.sublist_append_left _ _)

theorem not_executedOnce_of_lost {s : Operator} {obj : RemediationRequest}
    {action : OperatorAction} (hobj : obj ∈ s.store.objects.take listLimit)
    (haction : obj.actionOf = some action) (hdone : action.request ∈ s.executedNames)
    {polls : List Poll} (hlisted : ∃ q ∈ polls, q.listed = true) :
    ¬ (Run.run (poll client) s polls).ExecutedOnce := by
  induction polls with
  | nil =>
    obtain ⟨q, hq, -⟩ := hlisted
    cases hq
  | cons q polls ih =>
    rw [Run.run_cons]
    cases hq : q.listed with
    | true =>
      intro honce
      have honce := honce.sublist (executedNames_sublist_run (s.poll client q) polls)
      rw [executedNames_poll hq, List.nodup_append] at honce
      exact honce.2.2 _ hdone _ (mem_requestsOf.mpr ⟨obj, hobj, action, haction, rfl⟩) rfl
    | false =>
      rw [poll_unlisted hq]
      refine ih ?_
      obtain ⟨q', hq', hlisted'⟩ := hlisted
      rcases List.mem_cons.mp hq' with rfl | hq'
      · rw [hq] at hlisted'
        cases hlisted'
      · exact ⟨q', hq', hlisted'⟩

/-- After a poll that loses an execution, the request is still to be
executed. -/
theorem exists_executed_of_loses {s : Operator} {p : Poll} (h : s.Loses client p) :
    ∃ obj action, obj ∈ (s.poll client p).store.objects.take listLimit ∧
      obj.actionOf = some action ∧ action.request ∈ (s.poll client p).executedNames := by
  obtain ⟨hlisted, obj, hobj, haction, hlost⟩ := h
  obtain ⟨action, haction⟩ := Option.ne_none_iff_exists'.mp haction
  refine ⟨obj, action, ?_, haction, ?_⟩
  · rw [(poll_listed hlisted s).1, List.take_append, ← List.map_take, List.take_take, min_self]
    exact List.mem_append_left _ (List.mem_map.mpr ⟨obj, hobj, handled_of_lost haction hlost⟩)
  · rw [executedNames_poll hlisted]
    exact List.mem_append_right _ (mem_requestsOf.mpr ⟨obj, hobj, action, haction, rfl⟩)

theorem run_unlisted {s : Operator} {polls : List Poll} (h : ∀ q ∈ polls, q.listed = false) :
    Run.run (poll client) s polls = s := by
  induction polls with
  | nil =>
    rfl
  | cons q polls ih =>
    rw [Run.run_cons, poll_unlisted (h q (by simp))]
    exact ih fun q' hq' => h q' (List.mem_cons_of_mem _ hq')

/-- After a poll that loses an execution no listing succeeds. -/
def NoListingAfterLoss (client : KubeClient) (s : Operator) (polls : List Poll) : Prop :=
  ∀ before p later, polls = before ++ p :: later → (Run.run (poll client) s before).Loses client p →
    ∀ q ∈ later, q.listed = false

theorem noListingAfterLoss_cons {s : Operator} {p : Poll} {polls : List Poll} :
    s.NoListingAfterLoss client (p :: polls) ↔
      (s.Loses client p → ∀ q ∈ polls, q.listed = false) ∧
        (s.poll client p).NoListingAfterLoss client polls := by
  constructor
  · intro h
    refine ⟨h [] p polls rfl, ?_⟩
    intro before q later hsplit
    exact h (p :: before) q later (by rw [hsplit]; rfl)
  · rintro ⟨hfirst, hrest⟩ before q later hsplit
    cases before with
    | nil =>
      obtain ⟨rfl, rfl⟩ := List.cons.inj hsplit
      exact hfirst
    | cons x before =>
      obtain ⟨rfl, htail⟩ := List.cons.inj hsplit
      exact hrest before q later htail

/-- **Whole runs.**  From a fresh state, every request is executed at most once
exactly when no listing succeeds after a lost execution. -/
theorem Fresh.executedOnce_run_iff {s : Operator} (h : s.Fresh) (polls : List Poll) :
    (Run.run (poll client) s polls).ExecutedOnce ↔ s.NoListingAfterLoss client polls := by
  induction polls generalizing s with
  | nil =>
    refine ⟨?_, fun _ => h.once⟩
    intro _ before p later hsplit
    simp at hsplit
  | cons p polls ih =>
    rw [Run.run_cons, noListingAfterLoss_cons]
    by_cases hloses : s.Loses client p
    · by_cases hnone : ∀ q ∈ polls, q.listed = false
      · rw [run_unlisted hnone]
        refine iff_of_true (h.executedOnce_poll p) ⟨fun _ => hnone, ?_⟩
        intro before q later hsplit _ q' hq'
        exact hnone q' (by simp [hsplit, hq'])
      · refine iff_of_false ?_ fun hall => hnone (hall.1 hloses)
        obtain ⟨obj, action, hobj, haction, hdone⟩ := exists_executed_of_loses hloses
        refine not_executedOnce_of_lost hobj haction hdone ?_
        simpa using hnone
    · rw [ih (h.after_poll hloses)]
      simp [hloses]

theorem fresh_start (store : RequestStore) : (start store).Fresh where
  once := List.nodup_nil
  unexecuted := by
    intro obj _ action _ hmem
    cases hmem

/-- **Requests are executed at most once**, in the runs in which no listing
succeeds after a poll that has executed a request and lost both of its status
patches, and in no others. -/
theorem executedOnce_iff (client : KubeClient) (enabled : Bool) (store : RequestStore)
    (polls : List Poll) :
    (runOperatorLoop client enabled store polls).ExecutedOnce ↔
      enabled = false ∨ (start store).NoListingAfterLoss client polls := by
  cases enabled with
  | false =>
    simp [runOperatorLoop, (fresh_start store).once]
  | true =>
    simp [runOperatorLoop, (fresh_start store).executedOnce_run_iff polls]

end Operator

def pendingRequest : RemediationRequest where
  name := some "fix-node-a"
  data := .object [("spec", .object [("nodeId", .string "node-a")])]

def acceptingApi : NodeApi where
  taintLookup := ⟨true, .error "not asked"⟩
  getTaints := fun _ => .ok none
  patchTaints := fun _ _ => .ok ()
  evictLookup := ⟨true, .error "not asked"⟩
  listPods := .ok []
  evict := fun _ _ => true

/-- The client library checks the force flag. -/
def kubeClient : KubeClient where
  sends := fun params kind => !params.force || decide (kind = .apply)

theorem kubeClient_forcesApplyOnly : kubeClient.ForcesApplyOnly := by
  intro params kind hforce hkind
  simp [kubeClient, hforce, hkind]

/-- A poll in which the server applies the status patches that reach it, or none
of them. -/
def samplePoll (applied : Bool) : Poll where
  listed := true
  answers := fun _ => {
    first := ⟨applied, "2026-01-01T00:00:00Z"⟩
    api := acceptingApi
    last := ⟨applied, "2026-01-01T00:00:01Z"⟩ }

/-- The patches of two polls are lost, and the request is executed twice. -/
theorem executedOnce_lostPatches :
    let s := Operator.runOperatorLoop kubeClient true ⟨[pendingRequest], by decide⟩
      [samplePoll false, samplePoll false]
    s.executed =
      [⟨"fix-node-a", "node-a", "taint_evict", "operator request", false⟩,
        ⟨"fix-node-a", "node-a", "taint_evict", "operator request", false⟩] ∧
    ¬ s.ExecutedOnce := by
  decide

end AtMostOnce

section Starvation

open RemediationRequest

/-- The server answers the listing of the poll, and applies every status patch
that reaches it. -/
structure Poll.Succeeds (p : Poll) : Prop where
  listed : p.listed = true
  applied : ∀ name, (p.answers name).first.applied = true ∧ (p.answers name).last.applied = true

theorem Poll.Succeeds.takesEffect {p : Poll} (hp : p.Succeeds) (client : KubeClient)
    (name : String) :
    (p.answers name).first.takesEffect client = client.sends statusParams .merge ∧
      (p.answers name).last.takesEffect client = client.sends statusParams .merge := by
  simp [PatchAnswer.takesEffect, hp.applied name]

theorem RemediationRequest.not_waiting_of_phase {obj : RemediationRequest}
    (h : obj.phase ∈ ["Succeeded", "Failed", "Running"]) : ¬ obj.Waiting := by
  rintro ⟨-, hphase | hphase⟩
  · rw [hphase] at h
    exact absurd h (by decide)
  · rw [hphase] at h
    exact absurd h (by decide)

theorem RemediationRequest.not_waiting_of_skip {obj : RemediationRequest}
    (h : obj.verdict = .skip) : ¬ obj.Waiting := by
  by_cases hphase : obj.phase ∈ ["Succeeded", "Failed", "Running"]
  · exact not_waiting_of_phase hphase
  · rintro ⟨hname, -⟩
    unfold verdict at h
    rw [if_neg hname, if_neg hphase] at h
    split at h
    · cases h
    · dsimp only at h
      split_ifs at h

/-- After its turn in a poll that succeeds, an object whose patches are sent is
not waiting. -/
theorem RemediationRequest.not_waiting_handled {client : KubeClient} {p : Poll} (hp : p.Succeeds)
    (hsends : client.sends statusParams .merge = true) (obj : RemediationRequest) :
    ¬ (obj.handled client p).Waiting := by
  obtain ⟨hfirst, hlast⟩ := hp.takesEffect client obj.requestName
  rw [hsends] at hfirst hlast
  unfold handled
  cases hverdict : obj.verdict with
  | skip =>
    exact not_waiting_of_skip hverdict
  | reject message =>
    exact not_waiting_of_phase (by simp [phase_afterPatch hfirst])
  | execute action =>
    exact not_waiting_of_phase (by rw [phase_afterPatch hlast]; exact finalStatus_mem _)

theorem RemediationRequest.handled_of_unsent {client : KubeClient} {p : Poll} (hp : p.Succeeds)
    (hsends : client.sends statusParams .merge = false) (obj : RemediationRequest) :
    obj.handled client p = obj := by
  obtain ⟨hfirst, hlast⟩ := hp.takesEffect client obj.requestName
  rw [hsends] at hfirst hlast
  unfold handled
  cases obj.verdict with
  | skip =>
    rfl
  | reject message =>
    exact afterPatch_of_lost hfirst
  | execute action =>
    simp only [afterPatch_of_lost hfirst, afterPatch_of_lost hlast]

namespace Operator

theorem drop_poll (client : KubeClient) (s : Operator) (p : Poll) :
    (s.poll client p).store.objects.drop listLimit = s.store.objects.drop listLimit := by
  cases hlisted : p.listed with
  | false =>
    rw [poll_unlisted hlisted]
  | true =>
    have hturns : ((s.store.objects.take listLimit).map (handled client p)).drop listLimit = [] :=
      List.drop_eq_nil_of_le (by simp)
    rw [(poll_listed hlisted s).1, List.drop_append, hturns, List.nil_append, List.length_map,
      List.length_take]
    rcases Nat.le_total listLimit s.store.objects.length with hmany | hfew
    · rw [Nat.min_eq_left hmany, Nat.sub_self, List.drop_zero]
    · rw [List.drop_eq_nil_of_le hfew, List.drop_nil]

/-- **Objects behind the limit are never touched.** -/
theorem drop_run (client : KubeClient) (s : Operator) (polls : List Poll) :
    (Run.run (poll client) s polls).store.objects.drop listLimit =
      s.store.objects.drop listLimit := by
  refine Run.invariant (I := fun s' : Operator =>
    s'.store.objects.drop listLimit = s.store.objects.drop listLimit) ?_ rfl polls
  intro s' p h
  rw [drop_poll, h]

/-- With a client that sends the status patches, a pass finishes the waiting
objects that it lists. -/
theorem noneWaiting_of_sent {client : KubeClient} {p : Poll} (hp : p.Succeeds)
    (hsends : client.sends statusParams .merge = true) (store : RequestStore) :
    (∀ obj ∈ ((start store).poll client p).store.objects, ¬ obj.Waiting) ↔
      ∀ obj ∈ store.objects.drop listLimit, ¬ obj.Waiting := by
  rw [(poll_listed hp.listed (start store)).1]
  constructor
  · intro h obj hobj
    exact h obj (List.mem_append_right _ hobj)
  · intro h obj hobj
    rcases List.mem_append.mp hobj with hobj | hobj
    · obtain ⟨old, -, rfl⟩ := List.mem_map.mp hobj
      exact not_waiting_handled hp hsends old
    · exact h obj hobj

/-- With a client that does not send the status patches, a pass changes no
object. -/
theorem objects_of_unsent {client : KubeClient} {p : Poll} (hp : p.Succeeds)
    (hsends : client.sends statusParams .merge = false) (store : RequestStore) :
    ((start store).poll client p).store.objects = store.objects := by
  have hturns : handled client p = id := funext fun obj => handled_of_unsent hp hsends obj
  rw [(poll_listed hp.listed (start store)).1, hturns, List.map_id]
  exact List.take_append_drop listLimit store.objects

/-- **When a pass leaves no request waiting.**  After a pass in which the server
answers the listing and applies the patches that reach it, no object is left
waiting exactly when, for every waiting object, the client sends the patches and
the object is not behind the limit of the listing.  A client that forces apply
patches only sends none of these merge patches: then it must be that no object
was waiting before. -/
theorem noneWaiting_iff (client : KubeClient) (store : RequestStore) (p : Poll)
    (hp : p.Succeeds) :
    ((∀ obj ∈ ((start store).poll client p).store.objects, ¬ obj.Waiting) ↔
      ∀ obj ∈ store.objects, obj.Waiting →
        client.sends statusParams .merge = true ∧ obj ∉ store.objects.drop listLimit) ∧
    (client.ForcesApplyOnly →
      ((∀ obj ∈ ((start store).poll client p).store.objects, ¬ obj.Waiting) ↔
        ∀ obj ∈ store.objects, ¬ obj.Waiting)) := by
  constructor
  · cases hsends : client.sends statusParams .merge with
    | false =>
      rw [objects_of_unsent hp hsends]
      simp
    | true =>
      rw [noneWaiting_of_sent hp hsends]
      constructor
      · intro h obj _ hwaiting
        exact ⟨rfl, fun hbehind => h obj hbehind hwaiting⟩
      · intro h obj hbehind hwaiting
        exact (h obj (List.mem_of_mem_drop hbehind) hwaiting).2 hbehind
  · intro hclient
    rw [objects_of_unsent hp (hclient statusParams .merge rfl (by decide))]

end Operator

def finishedRequest (i : Nat) : RemediationRequest where
  name := some ("done-" ++ toString i)
  data := .object [("spec", .object [("nodeId", .string "node-a")]),
    ("status", .object [("phase", .string "Succeeded")])]

def namelessRequest : RemediationRequest where
  name := none
  data := .object [("status", .object [("phase", .string "Pending")])]

/-- The client of the library leaves nothing waiting where nothing was; one that
sent the patches would also finish the request that waits. -/
theorem Operator.noneWaiting_iff_finished :
    let finished : RequestStore := ⟨[finishedRequest 0, namelessRequest], by decide⟩
    let pending : RequestStore := ⟨[finishedRequest 0, pendingRequest], by decide⟩
    let sending : KubeClient := ⟨fun _ _ => true⟩
    kubeClient.ForcesApplyOnly ∧ (samplePoll true).Succeeds ∧
      (∀ obj ∈ ((start finished).poll kubeClient (samplePoll true)).store.objects,
        ¬ obj.Waiting) ∧
      pendingRequest.Waiting ∧
      ∀ obj ∈ ((start pending).poll sending (samplePoll true)).store.objects, ¬ obj.Waiting := by
  have hsucceeds : (samplePoll true).Succeeds := ⟨rfl, fun _ => ⟨rfl, rfl⟩⟩
  refine ⟨kubeClient_forcesApplyOnly, hsucceeds, ?_, by decide, ?_⟩
  · exact ((noneWaiting_iff kubeClient _ _ hsucceeds).2 kubeClient_forcesApplyOnly).mpr (by decide)
  · refine (noneWaiting_iff _ _ _ hsucceeds).1.mpr ?_
    intro obj _ _
    exact ⟨rfl, List.not_mem_nil⟩

theorem requestName_finishedRequest_injective :
    Function.Injective (requestName ∘ finishedRequest) := by
  intro i j h
  have hdigits : toString i = toString j := (String.append_right_inj "done-").mp h
  have hi : Text.parseUnsigned (i + j + 1) (toString i) = some i :=
    Text.parseUnsigned_toString (by omega)
  have hj : Text.parseUnsigned (i + j + 1) (toString j) = some j :=
    Text.parseUnsigned_toString (by omega)
  rw [hdigits, hj] at hi
  exact (Option.some.inj hi).symm

/-- As many finished requests as a listing returns, and one that waits. -/
def crowdedStore : RequestStore where
  objects := (List.range listLimit).map finishedRequest ++ [pendingRequest]
  unique := by
    refine List.Nodup.filter _ ?_
    rw [List.map_append, List.map_map, List.nodup_append]
    refine ⟨List.nodup_range.map requestName_finishedRequest_injective, List.nodup_singleton _, ?_⟩
    intro name hname _ hpending hsame
    obtain ⟨i, -, rfl⟩ := List.mem_map.mp hname
    rw [List.mem_singleton.mp hpending] at hsame
    have hchars := congrArg (fun s : String => s.toList.head?) hsame
    simp [finishedRequest, pendingRequest, requestName] at hchars

theorem pendingRequest_mem_run (client : KubeClient) (polls : List Poll) :
    pendingRequest ∈
      (Run.run (Operator.poll client) (.start crowdedStore) polls).store.objects := by
  refine List.mem_of_mem_drop (i := listLimit) ?_
  rw [Operator.drop_run]
  simp [Operator.start, crowdedStore]

/-- The finished requests are skipped, so that every call of the pass succeeds
with any client, and the request behind them is still waiting, as it is after any
number of passes.  The client of the library leaves it waiting also when it is
the only object. -/
theorem noneWaiting_crowded :
    (samplePoll true).Succeeds ∧ pendingRequest.Waiting ∧
      (∀ client, pendingRequest ∈
        ((Operator.start crowdedStore).poll client (samplePoll true)).store.objects) ∧
      (∀ client polls, pendingRequest ∈
        (Run.run (Operator.poll client) (.start crowdedStore) polls).store.objects) ∧
      pendingRequest ∈ ((Operator.start ⟨[pendingRequest], by decide⟩).poll kubeClient
        (samplePoll true)).store.objects := by
  have hsucceeds : (samplePoll true).Succeeds := ⟨rfl, fun _ => ⟨rfl, rfl⟩⟩
  refine ⟨hsucceeds, by decide, ?_, pendingRequest_mem_run, ?_⟩
  · intro client
    exact pendingRequest_mem_run client [samplePoll true]
  · rw [Operator.objects_of_unsent hsucceeds rfl]
    exact List.mem_singleton_self _

end Starvation

end ArkInfra
