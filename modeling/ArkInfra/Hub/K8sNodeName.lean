import ArkInfra.Lib.HashMap
import ArkInfra.Lib.Text
import Mathlib.Data.List.Nodup

/-!
# Names of Kubernetes nodes

`hub/src/k8s_controller.rs`, `map_node_id_to_k8s_name`: before the controller
taints and drains a node it maps the node id of the agent to the name of a
Kubernetes node.  It asks for a node with that very name; if that fails it
lists the nodes and takes the first one that carries the id in the label
`ark.io/node-id` or whose name contains the id; if there is none it keeps the
id.

The substring test is made in the same scan as the test of the label, so a node
whose name merely contains the id wins over the labelled node further down.
`resolvesRightly_iff` says exactly when the answer is the right node: a node
that only looks alike has to be preceded by one that is meant.
-/

namespace ArkInfra

/-- The part of the metadata of a Kubernetes node that the mapping reads. -/
structure KubeNode where
  name : Option String
  labels : Option (HashMap String String)

namespace KubeNode

def Carries (nodeId : String) (node : KubeNode) : Prop :=
  ∃ labels ∈ node.labels, labels.lookup "ark.io/node-id" = some nodeId

instance (nodeId : String) (node : KubeNode) : Decidable (node.Carries nodeId) :=
  inferInstanceAs (Decidable (∃ labels ∈ node.labels, _))

/-- The name of the node, if the scan stops at it. -/
def resolve (nodeId : String) (node : KubeNode) : Option String :=
  match node.name with
  | none => none
  | some name =>
    if node.Carries nodeId then some name
    else if name == nodeId || Text.contains name nodeId then some name
    else none

/-- The node is the one with the id: it is named so, or carries the label. -/
def Meant (nodeId : String) (node : KubeNode) : Prop :=
  node.name = some nodeId ∨ node.Carries nodeId

instance (nodeId : String) (node : KubeNode) : Decidable (node.Meant nodeId) :=
  inferInstanceAs (Decidable (_ ∨ _))

/-- The name of the node contains the id, but the node is another one. -/
def Lookalike (nodeId : String) (node : KubeNode) : Prop :=
  (∃ name ∈ node.name, Text.contains name nodeId = true) ∧ ¬ node.Meant nodeId

theorem resolve_eq_some_iff {nodeId name : String} {node : KubeNode} :
    node.resolve nodeId = some name ↔
      node.name = some name ∧ (node.Meant nodeId ∨ node.Lookalike nodeId) := by
  unfold resolve
  cases hname : node.name with
  | none =>
    simp
  | some own =>
    by_cases hcarries : node.Carries nodeId
    · simp [hcarries, Meant]
    · by_cases hown : own = nodeId
      · simp [hcarries, hown, Meant, hname]
      · simp [hcarries, hown, Meant, Lookalike, hname, and_comm]

end KubeNode

/-- A list of nodes as the API serves it: each has a name, and no two have the
same. -/
structure NodeList where
  nodes : List KubeNode
  named : ∀ node ∈ nodes, node.name ≠ none
  unique : (nodes.map KubeNode.name).Nodup

/-- Map a node id to the name of a Kubernetes node.  `direct` says whether the
lookup by name succeeds, `listed` is the answer to the listing. -/
def mapNodeIdToK8sName (nodeId : String) (direct : Bool) (listed : Except String NodeList) :
    Except String String :=
  if direct then
    .ok nodeId
  else do
    let list ← listed
    match list.nodes.findSome? (KubeNode.resolve nodeId) with
    | some name => return name
    | none => return nodeId

theorem mapNodeIdToK8sName_listed (nodeId : String) (list : NodeList) :
    mapNodeIdToK8sName nodeId false (.ok list) =
      .ok ((list.nodes.findSome? (KubeNode.resolve nodeId)).getD nodeId) := by
  simp only [mapNodeIdToK8sName, bind, Except.bind, pure, Except.pure]
  cases list.nodes.findSome? (KubeNode.resolve nodeId) <;> rfl

namespace NodeList

theorem eq_of_name {list : NodeList} {a b : KubeNode} (ha : a ∈ list.nodes) (hb : b ∈ list.nodes)
    (hname : a.name = b.name) : a = b :=
  List.inj_on_of_nodup_map list.unique ha hb hname

theorem resolve_ne_none {list : NodeList} {nodeId : String} {node : KubeNode}
    (hnode : node ∈ list.nodes) (hmeant : node.Meant nodeId) : node.resolve nodeId ≠ none := by
  obtain ⟨name, hname⟩ := Option.ne_none_iff_exists'.mp (list.named node hnode)
  have hsome := KubeNode.resolve_eq_some_iff.mpr ⟨hname, Or.inl hmeant⟩
  rw [hsome]
  exact Option.some_ne_none name

/-- The mapping never names another node: a listed node with the returned name
is named after the id or carries the label; and if some node carries the label
while none is named after the id, one that carries it is returned. -/
def ResolvesRightly (nodeId : String) (direct : Bool) (list : NodeList) : Prop :=
  ∀ name, mapNodeIdToK8sName nodeId direct (.ok list) = .ok name →
    (∀ node ∈ list.nodes, node.name = some name → name = nodeId ∨ node.Carries nodeId) ∧
    ((∃ node ∈ list.nodes, node.Carries nodeId) →
      (∀ node ∈ list.nodes, node.name ≠ some nodeId) →
      ∃ node ∈ list.nodes, node.name = some name ∧ node.Carries nodeId)

/-- The list leaves no doubt about the id.  After a successful lookup by name,
a node that carries the label does not stand alone: a node with that name is
listed.  Otherwise every node that looks alike comes after one that is meant. -/
def Unmistakable (nodeId : String) (direct : Bool) (list : NodeList) : Prop :=
  if direct then
    (∃ node ∈ list.nodes, node.Carries nodeId) → ∃ node ∈ list.nodes, node.name = some nodeId
  else
    ∀ before node after, list.nodes = before ++ node :: after → node.Lookalike nodeId →
      ∃ earlier ∈ before, earlier.Meant nodeId

theorem meant_of_findSome {list : NodeList} {nodeId name : String}
    (h : list.Unmistakable nodeId false)
    (hfound : list.nodes.findSome? (KubeNode.resolve nodeId) = some name) :
    ∃ node ∈ list.nodes, node.name = some name ∧ node.Meant nodeId := by
  obtain ⟨before, node, after, hsplit, hresolve, hskipped⟩ := List.findSome?_eq_some_iff.mp hfound
  have hnode : node ∈ list.nodes := by simp [hsplit]
  obtain ⟨hname, hmeant | hlook⟩ := KubeNode.resolve_eq_some_iff.mp hresolve
  · exact ⟨node, hnode, hname, hmeant⟩
  · obtain ⟨earlier, hearlier, hmeant⟩ := h before node after hsplit hlook
    have hlisted : earlier ∈ list.nodes := by simp [hsplit, hearlier]
    exact absurd (hskipped earlier hearlier) (resolve_ne_none hlisted hmeant)

/-- If no node that is meant precedes a lookalike, the scan stops at a
lookalike. -/
theorem lookalike_of_findSome {list : NodeList} {nodeId : String} {before after : List KubeNode}
    {node : KubeNode} (hsplit : list.nodes = before ++ node :: after)
    (hlook : node.Lookalike nodeId) (hnone : ∀ earlier ∈ before, ¬ earlier.Meant nodeId) :
    ∃ name, list.nodes.findSome? (KubeNode.resolve nodeId) = some name ∧
      ∃ found ∈ list.nodes, found.name = some name ∧ found.Lookalike nodeId := by
  rw [hsplit, List.findSome?_append]
  cases hbefore : before.findSome? (KubeNode.resolve nodeId) with
  | some name =>
    obtain ⟨found, hfound, hresolve⟩ := List.exists_of_findSome?_eq_some hbefore
    obtain ⟨hname, hcase⟩ := KubeNode.resolve_eq_some_iff.mp hresolve
    refine ⟨name, rfl, found, List.mem_append_left _ hfound, hname, ?_⟩
    exact hcase.resolve_left (hnone found hfound)
  | none =>
    obtain ⟨name, hname, _⟩ := hlook.1
    have hresolve := KubeNode.resolve_eq_some_iff.mpr ⟨hname, Or.inr hlook⟩
    refine ⟨name, ?_, node, by simp, hname, hlook⟩
    simp [hresolve]

theorem resolvesRightly_direct_iff (nodeId : String) (list : NodeList) :
    list.ResolvesRightly nodeId true ↔ list.Unmistakable nodeId true := by
  constructor
  · intro h hcarries
    by_contra hnone
    have hnot : ∀ node ∈ list.nodes, node.name ≠ some nodeId := by
      intro node hnode hname
      exact hnone ⟨node, hnode, hname⟩
    obtain ⟨node, hnode, hname, _⟩ := (h nodeId rfl).2 hcarries hnot
    exact hnot node hnode hname
  · intro h name hname
    obtain rfl : nodeId = name := Except.ok.inj hname
    refine ⟨fun _ _ _ => Or.inl rfl, ?_⟩
    intro hcarries hnot
    obtain ⟨node, hnode, hname⟩ := h hcarries
    exact absurd hname (hnot node hnode)

theorem unmistakable_of_resolvesRightly {nodeId : String} {list : NodeList}
    (h : list.ResolvesRightly nodeId false) : list.Unmistakable nodeId false := by
  intro before node after hsplit hlook
  by_contra hnone
  have hnot : ∀ earlier ∈ before, ¬ earlier.Meant nodeId := by
    intro earlier hearlier hmeant
    exact hnone ⟨earlier, hearlier, hmeant⟩
  obtain ⟨name, hfound, found, hlisted, hname, hother⟩ := lookalike_of_findSome hsplit hlook hnot
  have hreturned : mapNodeIdToK8sName nodeId false (.ok list) = .ok name := by
    rw [mapNodeIdToK8sName_listed, hfound, Option.getD_some]
  apply hother.2
  refine ((h name hreturned).1 found hlisted hname).imp ?_ id
  rintro rfl
  exact hname

theorem resolvesRightly_of_unmistakable {nodeId : String} {list : NodeList}
    (h : list.Unmistakable nodeId false) : list.ResolvesRightly nodeId false := by
  intro name hreturned
  rw [mapNodeIdToK8sName_listed] at hreturned
  obtain rfl := Except.ok.inj hreturned
  cases hfound : list.nodes.findSome? (KubeNode.resolve nodeId) with
  | some found =>
    obtain ⟨node, hnode, hname, hmeant⟩ := meant_of_findSome h hfound
    rw [Option.getD_some]
    constructor
    · intro other hother hsame
      obtain rfl : other = node := eq_of_name hother hnode (hsame.trans hname.symm)
      refine hmeant.imp ?_ id
      intro hid
      exact Option.some.inj (hname.symm.trans hid)
    · intro _ hnot
      exact ⟨node, hnode, hname, hmeant.resolve_left (hnot node hnode)⟩
  | none =>
    refine ⟨fun _ _ _ => Or.inl rfl, ?_⟩
    rintro ⟨node, hnode, hcarries⟩ _
    have hskipped := List.findSome?_eq_none_iff.mp hfound node hnode
    exact absurd hskipped (resolve_ne_none hnode (Or.inr hcarries))

/-- **The right node.**  For every node id, every outcome of the lookup by name
and every list of nodes, the mapping answers rightly exactly when the list
leaves no doubt about the id. -/
theorem resolvesRightly_iff (nodeId : String) (direct : Bool) (list : NodeList) :
    list.ResolvesRightly nodeId direct ↔ list.Unmistakable nodeId direct := by
  cases direct with
  | true =>
    exact resolvesRightly_direct_iff nodeId list
  | false =>
    exact ⟨unmistakable_of_resolvesRightly, resolvesRightly_of_unmistakable⟩

/-- The node `ip-10-0-0-1` carries the label `node-1`, but `node-10` is listed
before it and its name contains the id: the controller would drain `node-10`. -/
theorem resolvesRightly_iff_nodeTen :
    let other : KubeNode := ⟨some "node-10", none⟩
    let meant : KubeNode :=
      ⟨some "ip-10-0-0-1", some (AList.insert "ark.io/node-id" "node-1" ∅)⟩
    let list : NodeList := ⟨[other, meant], by decide, by decide⟩
    mapNodeIdToK8sName "node-1" false (.ok list) = .ok "node-10" ∧
    ¬ other.Meant "node-1" ∧ meant.Carries "node-1" ∧
    ¬ list.ResolvesRightly "node-1" false := by
  intro other meant list
  have hreturned : mapNodeIdToK8sName "node-1" false (.ok list) = .ok "node-10" := by
    decide
  have hother : ¬ other.Meant "node-1" := by
    decide
  refine ⟨hreturned, hother, by decide, ?_⟩
  intro h
  apply hother
  refine ((h "node-10" hreturned).1 other (by simp [list]) rfl).imp ?_ id
  simp

end NodeList

end ArkInfra
