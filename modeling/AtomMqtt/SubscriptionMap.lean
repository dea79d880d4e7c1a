import AtomMqtt.Subscription
import AtomMqtt.Topics
import Mathlib.Data.Set.Card

set_option autoImplicit false

/-! The subscription tree represents a finite map. The map takes a client and a filter to the requested QoS. The
tree keeps each entry at the end of the path that the filter's segments spell, so a lookup collects the nodes at
a finite list of paths. -/
namespace AtomMqtt
open NamedTrie

/-- What the tree is for. -/
abbrev SubscriptionMap := String × String → Option QoS

namespace SubscriptionMap

def empty : SubscriptionMap := fun _ => none

def insert (M : SubscriptionMap) (clientId filter : String) (qos : QoS) : SubscriptionMap :=
  fun k => if k = (clientId, filter) then some qos else M k

def delete (M : SubscriptionMap) (clientId filter : String) : SubscriptionMap :=
  fun k => if k = (clientId, filter) then none else M k

def deleteClient (M : SubscriptionMap) (clientId : String) : SubscriptionMap :=
  fun k => if k.1 = clientId then none else M k

def support (M : SubscriptionMap) : Set (String × String) := {k | (M k).isSome = true}

end SubscriptionMap

def TopicNode.subsAt (node : TopicNode) (path : List String) : List Subscription := Trie.valueAt [] path node

theorem insertNode_eq (subscription : Subscription) (segments : List String) : ∀ node : TopicNode,
    insertNode node segments subscription = Trie.alter [] (setOrPush subscription) segments node := by
  induction segments with
  | nil => rintro ⟨subs, children⟩; rfl
  | cons segment rest ih =>
    rintro ⟨subs, children⟩
    have hfun : (fun child => insertNode child rest subscription) =
        Trie.alter [] (setOrPush subscription) rest := funext ih
    rw [insertNode, Trie.alter, hfun]
    cases h : children.lookup segment with
    | none => rw [ih]; rfl
    | some child => rfl

theorem removeSubscription_eq (clientId : String) (segments : List String) : ∀ node : TopicNode,
    removeSubscription node segments clientId = Trie.adjust (withoutClient clientId) segments node := by
  induction segments with
  | nil => rintro ⟨subs, children⟩; rfl
  | cons segment rest ih =>
    rintro ⟨subs, children⟩
    have hfun : (fun child => removeSubscription child rest clientId) =
        Trie.adjust (withoutClient clientId) rest := funext ih
    rw [removeSubscription, Trie.adjust, hfun]

mutual

theorem removeClient_eq (clientId : String) : ∀ node : TopicNode,
    removeClient clientId node = Trie.mapValues (withoutClient clientId) node
  | .node subs children => by
    rw [removeClient, Trie.mapValues, removeClientBelow_eq clientId children]

theorem removeClientBelow_eq (clientId : String) : ∀ children : List (String × TopicNode),
    removeClientBelow clientId children = Trie.mapChildren (withoutClient clientId) children
  | [] => rfl
  | (segment, child) :: rest => by
    rw [removeClientBelow, Trie.mapChildren, removeClient_eq clientId child, removeClientBelow_eq clientId rest]

end

def TopicNode.flat (node : TopicNode) : List Subscription := (Trie.entries node).flatMap Prod.snd

theorem collect_append (acc : Collected) (xs ys : List Subscription) :
    collect acc (xs ++ ys) = collect (collect acc xs) ys := List.foldl_append

theorem collect_nil (acc : Collected) : collect acc [] = acc := rfl

theorem flat_below (children : List (String × TopicNode)) :
    (Trie.entriesBelow children).flatMap Prod.snd = children.flatMap fun c => TopicNode.flat c.2 := by
  induction children with
  | nil => rfl
  | cons c rest ih =>
    obtain ⟨segment, child⟩ := c
    simp [Trie.entriesBelow, TopicNode.flat, List.flatMap_map, ih]

theorem flat_node (subs : List Subscription) (children : List (String × TopicNode)) :
    TopicNode.flat (.node subs children) = subs ++ children.flatMap fun c => TopicNode.flat c.2 := by
  rw [TopicNode.flat, Trie.entries, List.flatMap_cons, flat_below]

mutual

theorem countNode_eq : ∀ node : TopicNode, countNode node = node.flat.length
  | .node subs children => by
    rw [countNode, flat_node, List.length_append, countBelow_eq children]

theorem countBelow_eq : ∀ children : List (String × TopicNode),
    countBelow children = (children.flatMap fun c => TopicNode.flat c.2).length
  | [] => rfl
  | (_, child) :: rest => by
    rw [countBelow, List.flatMap_cons, List.length_append, countNode_eq child, countBelow_eq rest]

end

mutual

theorem collectAll_eq : ∀ (node : TopicNode) (acc : Collected), collectAll acc node = collect acc node.flat
  | .node subs children, acc => by
    rw [collectAll, flat_node, collect_append, collectAllBelow_eq children]

theorem collectAllBelow_eq : ∀ (children : List (String × TopicNode)) (acc : Collected),
    collectAllBelow acc children = collect acc (children.flatMap fun c => TopicNode.flat c.2)
  | [], acc => rfl
  | (_, child) :: rest, acc => by
    rw [collectAllBelow, List.flatMap_cons, collect_append, collectAll_eq child, collectAllBelow_eq rest]

end

/-- The paths that a search for a topic visits, in its order. -/
def matchPaths : List String → List (List String)
  | [] => [["#"], []]
  | segment :: rest => ["#"] :: ((matchPaths rest).map (segment :: ·) ++ (matchPaths rest).map ("+" :: ·))

theorem subsAt_cons (subs : List Subscription) (children : List (String × TopicNode)) (segment : String)
    (path : List String) : TopicNode.subsAt (.node subs children) (segment :: path) =
      ((children.lookup segment).map fun child => TopicNode.subsAt child path).getD [] :=
  Trie.valueAt_cons [] subs segment path children

theorem subsAt_nil (subs : List Subscription) (children : List (String × TopicNode)) :
    TopicNode.subsAt (.node subs children) [] = subs := rfl

theorem collectWildcard_eq (subs : List Subscription) (children : List (String × TopicNode)) (acc : Collected) :
    collectWildcard children acc = collect acc (TopicNode.subsAt (.node subs children) ["#"]) := by
  rw [collectWildcard, subsAt_cons]
  cases h : children.lookup "#" with
  | none => rfl
  | some child => cases child; rfl

theorem collect_child {rest : List String} (ih : ∀ (node : TopicNode) (acc : Collected),
      collectMatching node rest acc = collect acc ((matchPaths rest).flatMap node.subsAt))
    (subs : List Subscription) (children : List (String × TopicNode)) (segment : String) (acc : Collected) :
    ((children.lookup segment).elim acc fun child => collectMatching child rest acc) =
      collect acc (((matchPaths rest).map (segment :: ·)).flatMap (TopicNode.subsAt (.node subs children))) := by
  rw [List.flatMap_map]
  simp only [subsAt_cons]
  cases h : children.lookup segment with
  | none =>
    have hnil : (matchPaths rest).flatMap (fun _ => ([] : List Subscription)) = [] := by simp
    exact (congrArg (collect acc) hnil).symm
  | some child => exact ih child acc

/-- A search collects along its paths. Induction on the topic's segments. -/
theorem collectMatching_eq (segments : List String) : ∀ (node : TopicNode) (acc : Collected),
    collectMatching node segments acc = collect acc ((matchPaths segments).flatMap node.subsAt) := by
  induction segments with
  | nil =>
    rintro ⟨subs, children⟩ acc
    rw [collectMatching, collectWildcard_eq subs children acc]
    simp only [matchPaths, List.flatMap_cons, List.flatMap_nil, List.append_nil, collect_append, subsAt_nil]
  | cons segment rest ih =>
    rintro ⟨subs, children⟩ acc
    simp only [collectMatching, matchPaths, List.flatMap_cons, List.flatMap_append, collect_append]
    rw [collect_child ih subs, collect_child ih subs, collectWildcard_eq subs children acc]

/-- The keys seen are those of the results, and no key has come twice. -/
structure CollectedOnce (acc : Collected) : Prop where
  seen : ∀ k, k ∈ acc.2 ↔ k ∈ acc.1.map Subscription.key
  once : (acc.1.map Subscription.key).Nodup

theorem CollectedOnce.empty : CollectedOnce ([], []) := ⟨by simp, by simp⟩

theorem collect_cons (acc : Collected) (sub : Subscription) (subs : List Subscription) :
    collect acc (sub :: subs) = collect (collect acc [sub]) subs := rfl

theorem collect_singleton (acc : Collected) (sub : Subscription) :
    collect acc [sub] =
      if sub.key ∈ acc.2 then acc else (acc.1 ++ [sub], sub.key :: acc.2) := by
  obtain ⟨results, seen⟩ := acc
  simp only [collect, List.foldl_cons, List.foldl_nil, List.contains_iff_mem]

theorem CollectedOnce.singleton {acc : Collected} (h : CollectedOnce acc) (sub : Subscription) :
    CollectedOnce (collect acc [sub]) := by
  rw [collect_singleton]
  split_ifs with hk
  · exact h
  · refine ⟨fun k => ?_, ?_⟩
    · simp only [List.mem_cons, h.seen, List.map_append, List.mem_append, List.map_cons, List.map_nil,
        List.not_mem_nil, or_false]
      exact or_comm
    · rw [List.map_append, List.nodup_append]
      refine ⟨h.once, by simp, ?_⟩
      rintro k hk' k' hk'' rfl
      obtain rfl : k = sub.key := by simpa using hk''
      exact hk ((h.seen _).mpr hk')

theorem CollectedOnce.collect {acc : Collected} (h : CollectedOnce acc) (subs : List Subscription) :
    CollectedOnce (collect acc subs) := by
  induction subs generalizing acc with
  | nil => exact h
  | cons sub subs ih =>
    rw [collect_cons]
    exact ih (h.singleton sub)

theorem mem_collect {acc : Collected} (h : CollectedOnce acc) {subs : List Subscription} {s : Subscription}
    (hkeys : ∀ a ∈ acc.1 ++ subs, ∀ b ∈ acc.1 ++ subs, a.key = b.key → a = b) :
    s ∈ (collect acc subs).1 ↔ s ∈ acc.1 ∨ s ∈ subs := by
  induction subs generalizing acc with
  | nil => simp [collect_nil]
  | cons sub subs ih =>
    have hstep : (∀ t, t ∈ (collect acc [sub]).1 ↔ t ∈ acc.1 ∨ t = sub) := by
      intro t
      rw [collect_singleton]
      split_ifs with hk
      · refine ⟨Or.inl, ?_⟩
        rintro (ht | rfl)
        · exact ht
        · obtain ⟨a, ha, hak⟩ := List.mem_map.mp ((h.seen _).mp hk)
          have hsame := hkeys a (by simp [ha]) t (by simp) hak
          exact hsame ▸ ha
      · simp
    rw [collect_cons, ih (h.singleton sub), hstep s, List.mem_cons, or_assoc]
    intro a ha b hb
    refine hkeys a ?_ b ?_
    · simp only [List.mem_append, hstep, List.mem_cons] at ha ⊢
      tauto
    · simp only [List.mem_append, hstep, List.mem_cons] at hb ⊢
      tauto

structure Represents (M : SubscriptionMap) (node : TopicNode) : Prop where
  distinct : Trie.Distinct node
  path : ∀ path, ∀ s ∈ node.subsAt path, splitSlash s.filter = path
  clients : ∀ path, ((node.subsAt path).map Subscription.clientId).Nodup
  entries : ∀ s : Subscription, s ∈ node.subsAt (splitSlash s.filter) ↔ M s.key = some s.qos

theorem Represents.empty : Represents SubscriptionMap.empty TopicNode.new := by
  have hnone : ∀ path, TopicNode.subsAt TopicNode.new path = [] := fun path => Trie.valueAt_leaf [] path
  refine ⟨Trie.Distinct.leaf [], ?_, ?_, ?_⟩
  · simp [hnone]
  · simp [hnone]
  · simp [hnone, SubscriptionMap.empty]

theorem mem_setOrPush {subs : List Subscription} {new : Subscription}
    (hfilter : ∀ s ∈ subs, s.filter = new.filter) (hclients : (subs.map Subscription.clientId).Nodup)
    (s : Subscription) : s ∈ setOrPush new subs ↔ s = new ∨ s ∈ subs ∧ s.clientId ≠ new.clientId := by
  induction subs with
  | nil => simp [setOrPush]
  | cons x xs ih =>
    simp only [List.map_cons, List.nodup_cons] at hclients
    have hx := hfilter x List.mem_cons_self
    have hxs := ih (fun s hs => hfilter s (List.mem_cons_of_mem _ hs)) hclients.2
    simp only [setOrPush, hx, beq_self_eq_true, Bool.and_true, beq_iff_eq]
    split_ifs with hc
    · have hnew : ({ clientId := x.clientId, filter := new.filter, qos := new.qos } : Subscription) = new := by
        rw [hc]
      rw [hnew, List.mem_cons, List.mem_cons]
      constructor
      · rintro (rfl | hs)
        · exact Or.inl rfl
        · exact Or.inr ⟨Or.inr hs, fun e => hclients.1 (List.mem_map.mpr ⟨s, hs, e.trans hc.symm⟩)⟩
      · rintro (rfl | ⟨rfl | hs, hne⟩)
        · exact Or.inl rfl
        · exact absurd hc hne
        · exact Or.inr hs
    · rw [List.mem_cons, hxs, List.mem_cons]
      constructor
      · rintro (rfl | rfl | ⟨hs, hne⟩)
        · exact Or.inr ⟨Or.inl rfl, hc⟩
        · exact Or.inl rfl
        · exact Or.inr ⟨Or.inr hs, hne⟩
      · rintro (rfl | ⟨rfl | hs, hne⟩)
        · exact Or.inr (Or.inl rfl)
        · exact Or.inl rfl
        · exact Or.inr (Or.inr ⟨hs, hne⟩)

theorem setOrPush_clients {subs : List Subscription} {new : Subscription}
    (hfilter : ∀ s ∈ subs, s.filter = new.filter) (hclients : (subs.map Subscription.clientId).Nodup) :
    ((setOrPush new subs).map Subscription.clientId).Nodup := by
  induction subs with
  | nil => simp [setOrPush]
  | cons x xs ih =>
    simp only [List.map_cons, List.nodup_cons] at hclients
    have hx := hfilter x List.mem_cons_self
    have hfilter' : ∀ s ∈ xs, s.filter = new.filter := fun s hs => hfilter s (List.mem_cons_of_mem _ hs)
    simp only [setOrPush, hx, beq_self_eq_true, Bool.and_true, beq_iff_eq]
    split_ifs with hc
    · simpa using hclients
    · simp only [List.map_cons, List.nodup_cons]
      refine ⟨fun hmem => ?_, ih hfilter' hclients.2⟩
      obtain ⟨s, hs, hsx⟩ := List.mem_map.mp hmem
      rcases (mem_setOrPush hfilter' hclients.2 s).mp hs with rfl | ⟨hs, -⟩
      · exact hc hsx.symm
      · exact hclients.1 (List.mem_map.mpr ⟨s, hs, hsx⟩)

theorem Represents.filter_eq {M : SubscriptionMap} {node : TopicNode} (h : Represents M node) {filter : String}
    {s : Subscription} (hs : s ∈ node.subsAt (splitSlash filter)) : s.filter = filter :=
  splitSlash_injective (h.path _ s hs)

theorem Represents.insert {M : SubscriptionMap} {node : TopicNode} (h : Represents M node)
    (new : Subscription) :
    Represents (M.insert new.clientId new.filter new.qos) (insertNode node (splitSlash new.filter) new) := by
  have hat : ∀ path, (insertNode node (splitSlash new.filter) new).subsAt path =
      if path = splitSlash new.filter then setOrPush new (node.subsAt (splitSlash new.filter))
      else node.subsAt path := by
    intro path
    rw [insertNode_eq]
    exact Trie.valueAt_alter _ _ _ _ _
  have hfilter : ∀ s ∈ node.subsAt (splitSlash new.filter), s.filter = new.filter := fun s hs => h.filter_eq hs
  have hmem := mem_setOrPush hfilter (h.clients (splitSlash new.filter))
  refine ⟨?_, ?_, ?_, ?_⟩
  · rw [insertNode_eq]
    exact h.distinct.alter _ _ _
  · intro path s hs
    rw [hat] at hs
    split_ifs at hs with hp
    · rcases (hmem s).mp hs with rfl | ⟨hs, -⟩
      · exact hp.symm
      · exact hp ▸ h.path _ s hs
    · exact h.path path s hs
  · intro path
    rw [hat]
    split_ifs with hp
    · exact setOrPush_clients hfilter (h.clients _)
    · exact h.clients path
  · intro s
    rw [hat]
    simp only [SubscriptionMap.insert, Subscription.key, Prod.mk.injEq]
    by_cases hf : s.filter = new.filter
    · rw [if_pos (by rw [hf]), hmem s]
      by_cases hc : s.clientId = new.clientId
      · simp only [hc, hf, and_self, if_true, ne_eq, not_true, and_false, or_false, Option.some.injEq]
        constructor
        · rintro rfl
          rfl
        · intro hq
          obtain ⟨_, _, _⟩ := s
          obtain ⟨_, _, _⟩ := new
          simp only at hf hc hq
          simp [hf, hc, hq]
      · have hne : s ≠ new := fun e => hc (by rw [e])
        have hentry := h.entries s
        rw [hf] at hentry
        simp only [hne, false_or, ne_eq, hc, not_false_eq_true, and_true, false_and, if_false]
        rw [hentry, Subscription.key, hf]
    · have hp : splitSlash s.filter ≠ splitSlash new.filter := fun e => hf (splitSlash_injective e)
      rw [if_neg hp]
      simp only [hf, and_false, if_false]
      exact h.entries s

theorem mem_withoutClient (clientId : String) (subs : List Subscription) (s : Subscription) :
    s ∈ withoutClient clientId subs ↔ s ∈ subs ∧ s.clientId ≠ clientId := by
  simp [withoutClient]

theorem withoutClient_clients (clientId : String) {subs : List Subscription}
    (h : (subs.map Subscription.clientId).Nodup) : ((withoutClient clientId subs).map Subscription.clientId).Nodup :=
  h.sublist (List.filter_sublist.map _)

theorem Represents.delete {M : SubscriptionMap} {node : TopicNode} (h : Represents M node)
    (clientId filter : String) :
    Represents (M.delete clientId filter) (removeSubscription node (splitSlash filter) clientId) := by
  have hat : ∀ path, (removeSubscription node (splitSlash filter) clientId).subsAt path =
      if path = splitSlash filter then withoutClient clientId (node.subsAt (splitSlash filter))
      else node.subsAt path := by
    intro path
    rw [removeSubscription_eq]
    exact Trie.valueAt_adjust _ rfl _ _ _
  refine ⟨?_, ?_, ?_, ?_⟩
  · rw [removeSubscription_eq]
    exact h.distinct.adjust _ _
  · intro path s hs
    rw [hat] at hs
    split_ifs at hs with hp
    · exact hp ▸ h.path _ s ((mem_withoutClient _ _ _).mp hs).1
    · exact h.path path s hs
  · intro path
    rw [hat]
    split_ifs with hp
    · exact withoutClient_clients _ (h.clients _)
    · exact h.clients path
  · intro s
    rw [hat]
    simp only [SubscriptionMap.delete, Subscription.key, Prod.mk.injEq]
    by_cases hf : s.filter = filter
    · rw [if_pos (by rw [hf]), mem_withoutClient]
      have hentry := h.entries s
      rw [hf] at hentry
      by_cases hc : s.clientId = clientId
      · simp [hc, hf]
      · simp only [ne_eq, hc, not_false_eq_true, and_true, false_and, if_false]
        rw [hentry, Subscription.key, hf]
    · have hp : splitSlash s.filter ≠ splitSlash filter := fun e => hf (splitSlash_injective e)
      rw [if_neg hp]
      simp only [hf, and_false, if_false]
      exact h.entries s

theorem Represents.deleteClient {M : SubscriptionMap} {node : TopicNode} (h : Represents M node)
    (clientId : String) : Represents (M.deleteClient clientId) (removeClient clientId node) := by
  have hat : ∀ path, (removeClient clientId node).subsAt path = withoutClient clientId (node.subsAt path) := by
    intro path
    rw [removeClient_eq]
    exact Trie.valueAt_mapValues _ rfl _ _
  refine ⟨?_, ?_, ?_, ?_⟩
  · rw [removeClient_eq]
    exact h.distinct.mapValues _
  · intro path s hs
    rw [hat] at hs
    exact h.path path s ((mem_withoutClient _ _ _).mp hs).1
  · intro path
    rw [hat]
    exact withoutClient_clients _ (h.clients _)
  · intro s
    rw [hat, mem_withoutClient, h.entries s]
    simp only [SubscriptionMap.deleteClient, Subscription.key]
    by_cases hc : s.clientId = clientId <;> simp [hc]

end AtomMqtt
