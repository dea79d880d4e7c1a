import AtomMqtt.SubscriptionRefinement

set_option autoImplicit false

/-! The tree as it is without one client. Two trees are compared path by path: what one lists there is what the
other does, less the subscriptions of the client. What the others do keeps it so, and what the client does
changes only the tree that has it. -/
namespace AtomMqtt
open NamedTrie

/-- The second tree is the first without this client. -/
def SubscriptionTree.Apart (clientId : String) (tree tree' : SubscriptionTree) : Prop :=
  ∀ path, tree'.root.subsAt path = withoutClient clientId (tree.root.subsAt path)

section
variable {clientId : String} {subs : List Subscription}

theorem withoutClient_eq_self (h : ∀ s ∈ subs, s.clientId ≠ clientId) : withoutClient clientId subs = subs :=
  List.filter_eq_self.mpr fun s hs => bne_iff_ne.mpr (h s hs)

theorem withoutClient_cons_of_eq {s : Subscription} (h : s.clientId = clientId) :
    withoutClient clientId (s :: subs) = withoutClient clientId subs := by
  simp [withoutClient, h]

theorem withoutClient_cons_of_ne {s : Subscription} (h : s.clientId ≠ clientId) :
    withoutClient clientId (s :: subs) = s :: withoutClient clientId subs := by
  simp [withoutClient, h]

theorem withoutClient_idem (subs : List Subscription) :
    withoutClient clientId (withoutClient clientId subs) = withoutClient clientId subs := by
  simp [withoutClient, List.filter_filter]

theorem withoutClient_comm (other : String) (subs : List Subscription) :
    withoutClient clientId (withoutClient other subs) = withoutClient other (withoutClient clientId subs) :=
  List.filter_comm ..

theorem withoutClient_setOrPush_own {new : Subscription} (h : new.clientId = clientId) :
    withoutClient clientId (setOrPush new subs) = withoutClient clientId subs := by
  induction subs with
  | nil => exact withoutClient_cons_of_eq h
  | cons s subs ih =>
    rw [setOrPush]
    split_ifs with hsame
    · have hs : s.clientId = clientId := by
        simp only [Bool.and_eq_true, beq_iff_eq] at hsame
        exact hsame.1.trans h
      rw [withoutClient_cons_of_eq hs]
      exact withoutClient_cons_of_eq hs
    · by_cases hs : s.clientId = clientId
      · rw [withoutClient_cons_of_eq hs, withoutClient_cons_of_eq hs, ih]
      · rw [withoutClient_cons_of_ne hs, withoutClient_cons_of_ne hs, ih]

theorem withoutClient_setOrPush_other {new : Subscription} (h : new.clientId ≠ clientId) :
    withoutClient clientId (setOrPush new subs) = setOrPush new (withoutClient clientId subs) := by
  induction subs with
  | nil => exact withoutClient_cons_of_ne h
  | cons s subs ih =>
    by_cases hs : s.clientId = clientId
    · have hdiffers : (s.clientId == new.clientId && s.filter == new.filter) = false := by
        rw [hs, beq_eq_false_iff_ne.mpr (Ne.symm h), Bool.false_and]
      rw [setOrPush, hdiffers, if_neg Bool.false_ne_true, withoutClient_cons_of_eq hs, withoutClient_cons_of_eq hs, ih]
    · rw [withoutClient_cons_of_ne hs, setOrPush, setOrPush]
      split_ifs with hsame
      · exact withoutClient_cons_of_ne hs
      · rw [withoutClient_cons_of_ne hs, ih]

end

theorem subsAt_subscribe (tree : SubscriptionTree) (clientId filter : String) (qos : QoS) (path : List String) :
    (tree.subscribe clientId filter qos).root.subsAt path =
      if path = splitSlash filter then setOrPush { clientId, filter, qos } (tree.root.subsAt path)
      else tree.root.subsAt path := by
  change (insertNode tree.root (splitSlash filter) _).subsAt path = _
  rw [insertNode_eq]
  refine (Trie.valueAt_alter _ _ _ _ _).trans ?_
  split_ifs with hpath
  · rw [hpath]
    rfl
  · rfl

theorem subsAt_unsubscribe (tree : SubscriptionTree) (clientId filter : String) (path : List String) :
    (tree.unsubscribe clientId filter).root.subsAt path =
      if path = splitSlash filter then withoutClient clientId (tree.root.subsAt path) else tree.root.subsAt path := by
  change (removeSubscription tree.root (splitSlash filter) clientId).subsAt path = _
  rw [removeSubscription_eq]
  refine (Trie.valueAt_adjust _ rfl _ _ _).trans ?_
  split_ifs with hpath
  · rw [hpath]
    rfl
  · rfl

theorem subsAt_unsubscribeAll (tree : SubscriptionTree) (clientId : String) (path : List String) :
    (tree.unsubscribeAll clientId).root.subsAt path = withoutClient clientId (tree.root.subsAt path) := by
  change (removeClient clientId tree.root).subsAt path = _
  rw [removeClient_eq]
  exact Trie.valueAt_mapValues _ rfl _ _

namespace SubscriptionTree.Apart
variable {clientId : String} {tree tree' : SubscriptionTree}

theorem refl (hheld : tree.Held) (hnone : ∀ filter, ¬ tree.Has clientId filter) : Apart clientId tree tree := by
  intro path
  refine (withoutClient_eq_self fun s hs => ?_).symm
  rintro rfl
  obtain ⟨M, hM⟩ := hheld
  apply hnone s.filter
  rw [hM.has_iff]
  obtain rfl := hM.path path s hs
  exact ⟨s.qos, (hM.entries s).mp hs⟩

theorem subscribe (h : Apart clientId tree tree') {other : String} (hother : other ≠ clientId) (filter : String)
    (qos : QoS) : Apart clientId (tree.subscribe other filter qos) (tree'.subscribe other filter qos) := by
  intro path
  rw [subsAt_subscribe, subsAt_subscribe, h path]
  split_ifs with hpath
  · exact (withoutClient_setOrPush_other hother).symm
  · rfl

theorem subscribe_own (h : Apart clientId tree tree') (filter : String) (qos : QoS) :
    Apart clientId (tree.subscribe clientId filter qos) tree' := by
  intro path
  rw [subsAt_subscribe, h path]
  split_ifs with hpath
  · have hown : ({ clientId, filter, qos } : Subscription).clientId = clientId := rfl
    exact (withoutClient_setOrPush_own hown).symm
  · rfl

theorem unsubscribe (h : Apart clientId tree tree') (other filter : String) :
    Apart clientId (tree.unsubscribe other filter) (tree'.unsubscribe other filter) := by
  intro path
  rw [subsAt_unsubscribe, subsAt_unsubscribe, h path]
  split_ifs with hpath
  · exact withoutClient_comm ..
  · rfl

theorem unsubscribe_own (h : Apart clientId tree tree') (filter : String) :
    Apart clientId (tree.unsubscribe clientId filter) tree' := by
  intro path
  rw [subsAt_unsubscribe, h path]
  split_ifs with hpath
  · exact (withoutClient_idem _).symm
  · rfl

theorem unsubscribeAll (h : Apart clientId tree tree') (other : String) :
    Apart clientId (tree.unsubscribeAll other) (tree'.unsubscribeAll other) := by
  intro path
  rw [subsAt_unsubscribeAll, subsAt_unsubscribeAll, h path]
  exact withoutClient_comm ..

end SubscriptionTree.Apart

/-- Two searches have come upon the same, but for what the client has. -/
structure CollectedApart (clientId : String) (acc acc' : Collected) : Prop where
  results : acc'.1 = withoutClient clientId acc.1
  seen : ∀ key : String × String, key.1 ≠ clientId → (key ∈ acc'.2 ↔ key ∈ acc.2)

namespace CollectedApart
variable {clientId : String} {acc acc' : Collected}

theorem own (h : CollectedApart clientId acc acc') {sub : Subscription} (hsub : sub.clientId = clientId) :
    CollectedApart clientId (collect acc [sub]) acc' := by
  rw [collect_singleton]
  split_ifs with hseen
  · exact h
  · refine ⟨?_, fun key hkey => ?_⟩
    · rw [withoutClient, List.filter_append, ← withoutClient, ← withoutClient, withoutClient_cons_of_eq hsub, h.results]
      exact (List.append_nil _).symm
    · have hne : key ≠ sub.key := by
        rintro rfl
        exact hkey hsub
      rw [h.seen key hkey, List.mem_cons, or_iff_right hne]

theorem other (h : CollectedApart clientId acc acc') {sub : Subscription} (hsub : sub.clientId ≠ clientId) :
    CollectedApart clientId (collect acc [sub]) (collect acc' [sub]) := by
  rw [collect_singleton, collect_singleton]
  by_cases hseen : sub.key ∈ acc.2
  · rw [if_pos hseen, if_pos ((h.seen _ hsub).mpr hseen)]
    exact h
  · rw [if_neg hseen, if_neg fun hseen' => hseen ((h.seen _ hsub).mp hseen')]
    refine ⟨?_, fun key hkey => ?_⟩
    · rw [withoutClient, List.filter_append, ← withoutClient, ← withoutClient, withoutClient_cons_of_ne hsub, h.results]
      rfl
    · rw [List.mem_cons, List.mem_cons, h.seen key hkey]

theorem collect (h : CollectedApart clientId acc acc') (subs : List Subscription) :
    CollectedApart clientId (AtomMqtt.collect acc subs) (AtomMqtt.collect acc' (withoutClient clientId subs)) := by
  induction subs generalizing acc acc' with
  | nil => exact h
  | cons sub subs ih =>
    rw [collect_cons]
    by_cases hsub : sub.clientId = clientId
    · rw [withoutClient_cons_of_eq hsub]
      exact ih (h.own hsub)
    · rw [withoutClient_cons_of_ne hsub, collect_cons acc']
      exact ih (h.other hsub)

end CollectedApart

namespace SubscriptionTree.Apart
variable {clientId : String} {tree tree' : SubscriptionTree}

theorem lookup (h : Apart clientId tree tree') (topic : String) :
    tree'.lookup topic = withoutClient clientId (tree.lookup topic) := by
  have hpaths : (matchPaths (splitSlash topic)).flatMap tree'.root.subsAt =
      withoutClient clientId ((matchPaths (splitSlash topic)).flatMap tree.root.subsAt) := by
    rw [withoutClient, List.filter_flatMap]
    exact congrArg (List.flatMap · _) (funext h)
  have hempty : CollectedApart clientId ([], []) ([], []) := ⟨rfl, fun _ _ => Iff.rfl⟩
  rw [SubscriptionTree.lookup, SubscriptionTree.lookup, collectMatching_eq, collectMatching_eq, hpaths]
  exact (hempty.collect _).results

theorem entries (h : Apart clientId tree tree') (hheld : tree.Held) (hheld' : tree'.Held) {other : String}
    (hother : other ≠ clientId) (filter : String) : tree'.entries (other, filter) = tree.entries (other, filter) := by
  obtain ⟨M, hM⟩ := hheld
  obtain ⟨M', hM'⟩ := hheld'
  rw [hM.entries_eq, hM'.entries_eq]
  ext qos
  let s : Subscription := { clientId := other, filter, qos }
  have hsame : s ∈ tree'.root.subsAt (splitSlash filter) ↔ s ∈ tree.root.subsAt (splitSlash filter) := by
    rw [h, withoutClient, List.mem_filter, bne_iff_ne]
    exact and_iff_left hother
  exact (hM'.entries s).symm.trans (hsame.trans (hM.entries s))

end SubscriptionTree.Apart

end AtomMqtt
