import AtomMqtt.SubscriptionMap

set_option autoImplicit false

/-! Every sequence of operations on the subscription tree is one on the map. What the tree lists, counts and
finds for a topic is what the map holds. -/
namespace AtomMqtt
open NamedTrie

inductive TreeOp where
  | subscribe (clientId filter : String) (qos : QoS)
  | unsubscribe (clientId filter : String)
  | unsubscribeAll (clientId : String)
  deriving DecidableEq, Repr

def TreeOp.onTree (tree : SubscriptionTree) : TreeOp → SubscriptionTree
  | .subscribe clientId filter qos => tree.subscribe clientId filter qos
  | .unsubscribe clientId filter => tree.unsubscribe clientId filter
  | .unsubscribeAll clientId => tree.unsubscribeAll clientId

def TreeOp.onMap (M : SubscriptionMap) : TreeOp → SubscriptionMap
  | .subscribe clientId filter qos => M.insert clientId filter qos
  | .unsubscribe clientId filter => M.delete clientId filter
  | .unsubscribeAll clientId => M.deleteClient clientId

theorem Represents.step {M : SubscriptionMap} {tree : SubscriptionTree} (h : Represents M tree.root) (op : TreeOp) :
    Represents (op.onMap M) (op.onTree tree).root := by
  cases op with
  | subscribe clientId filter qos => exact h.insert { clientId, filter, qos }
  | unsubscribe clientId filter => exact h.delete clientId filter
  | unsubscribeAll clientId => exact h.deleteClient clientId

theorem Represents.run {M : SubscriptionMap} {tree : SubscriptionTree} (h : Represents M tree.root)
    (ops : List TreeOp) : Represents (ops.foldl TreeOp.onMap M) (ops.foldl TreeOp.onTree tree).root := by
  induction ops generalizing M tree with
  | nil => exact h
  | cons op ops ih => exact ih (h.step op)

theorem Represents.key_injective {M : SubscriptionMap} {node : TopicNode} (h : Represents M node)
    {p q : List String} {a b : Subscription} (ha : a ∈ node.subsAt p) (hb : b ∈ node.subsAt q)
    (hkey : a.key = b.key) : a = b := by
  have hpa := h.path p a ha
  have hpb := h.path q b hb
  subst hpa hpb
  have hqos : some a.qos = some b.qos := by
    rw [← (h.entries a).mp ha, ← (h.entries b).mp hb, hkey]
  obtain ⟨ca, fa, qa⟩ := a
  obtain ⟨cb, fb, qb⟩ := b
  simp only [Subscription.key, Prod.mk.injEq, Option.some.injEq] at hkey hqos
  simp only [hkey, hqos]

theorem Represents.collect_paths {M : SubscriptionMap} {node : TopicNode} (h : Represents M node)
    (paths : List (List String)) (s : Subscription) :
    s ∈ (collect ([], []) (paths.flatMap node.subsAt)).1 ↔ M s.key = some s.qos ∧ splitSlash s.filter ∈ paths := by
  rw [mem_collect CollectedOnce.empty]
  · simp only [List.not_mem_nil, false_or, List.mem_flatMap]
    constructor
    · rintro ⟨path, hpath, hs⟩
      obtain rfl := h.path path s hs
      exact ⟨(h.entries s).mp hs, hpath⟩
    · rintro ⟨hM, hpath⟩
      exact ⟨_, hpath, (h.entries s).mpr hM⟩
  · intro a ha b hb hkey
    simp only [List.nil_append, List.mem_flatMap] at ha hb
    obtain ⟨p, -, ha⟩ := ha
    obtain ⟨q, -, hb⟩ := hb
    exact h.key_injective ha hb hkey

theorem Represents.mem_flat {M : SubscriptionMap} {node : TopicNode} (h : Represents M node) (s : Subscription) :
    s ∈ node.flat ↔ M s.key = some s.qos := by
  rw [TopicNode.flat, List.mem_flatMap]
  constructor
  · rintro ⟨⟨path, subs⟩, he, hs⟩
    have hget := (Trie.mem_entries_iff h.distinct path subs).mp he
    have hat : s ∈ node.subsAt path := by
      rw [TopicNode.subsAt, Trie.valueAt, hget]
      exact hs
    obtain rfl := h.path path s hat
    exact (h.entries s).mp hat
  · intro hM
    have hat := (h.entries s).mpr hM
    rw [TopicNode.subsAt, Trie.valueAt] at hat
    cases hget : Trie.get? (splitSlash s.filter) node with
    | none => simp [hget] at hat
    | some subs =>
      refine ⟨(splitSlash s.filter, subs), (Trie.mem_entries_iff h.distinct _ _).mpr hget, ?_⟩
      simpa [hget] using hat

theorem Represents.flat_keys_nodup {M : SubscriptionMap} {node : TopicNode} (h : Represents M node) :
    (node.flat.map Subscription.key).Nodup := by
  have hpath : ∀ e ∈ Trie.entries node, e.2 = node.subsAt e.1 := by
    rintro ⟨path, subs⟩ he
    rw [TopicNode.subsAt, Trie.valueAt, (Trie.mem_entries_iff h.distinct path subs).mp he]
    rfl
  have hentries := Trie.entries_nodup h.distinct
  rw [List.Nodup, List.pairwise_map] at hentries
  rw [TopicNode.flat, List.map_flatMap, List.nodup_flatMap]
  constructor
  · intro e he
    have hclients := h.clients e.1
    rw [← hpath e he] at hclients
    refine List.Nodup.of_map Prod.fst ?_
    rw [List.map_map]
    exact hclients
  · refine hentries.imp_of_mem ?_
    intro d e hd he hne k hk hk'
    obtain ⟨a, ha, rfl⟩ := List.mem_map.mp hk
    obtain ⟨b, hb, hkey⟩ := List.mem_map.mp hk'
    have hda := h.path d.1 a (hpath d hd ▸ ha)
    have heb := h.path e.1 b (hpath e he ▸ hb)
    have hfilter : b.filter = a.filter := congrArg Prod.snd hkey
    exact hne (by rw [← hda, ← heb, hfilter])

theorem collect_of_nodup {acc : Collected} {subs : List Subscription}
    (hnew : ∀ s ∈ subs, s.key ∉ acc.2) (hnodup : (subs.map Subscription.key).Nodup) :
    (collect acc subs).1 = acc.1 ++ subs := by
  induction subs generalizing acc with
  | nil => simp [collect_nil]
  | cons sub subs ih =>
    simp only [List.map_cons, List.nodup_cons] at hnodup
    rw [collect_cons, collect_singleton, if_neg (hnew sub List.mem_cons_self), ih _ hnodup.2]
    · simp
    · intro s hs
      have hne : s.key ≠ sub.key := fun e => hnodup.1 (e ▸ List.mem_map_of_mem hs)
      simpa [hne] using hnew s (List.mem_cons_of_mem sub hs)

theorem Represents.allSubscriptions_eq {M : SubscriptionMap} {tree : SubscriptionTree}
    (h : Represents M tree.root) : tree.allSubscriptions = tree.root.flat := by
  rw [SubscriptionTree.allSubscriptions, collectAll_eq,
    collect_of_nodup (by simp) h.flat_keys_nodup, List.nil_append]

def SubscriptionTree.Has (tree : SubscriptionTree) (clientId filter : String) : Prop :=
  ∃ qos, { clientId, filter, qos } ∈ tree.allSubscriptions

/-- The tree represents some map. -/
def SubscriptionTree.Held (tree : SubscriptionTree) : Prop := ∃ M, Represents M tree.root

theorem SubscriptionTree.Held.new : SubscriptionTree.new.Held := ⟨_, Represents.empty⟩

theorem SubscriptionTree.Held.step {tree : SubscriptionTree} (h : tree.Held) (op : TreeOp) : (op.onTree tree).Held := by
  obtain ⟨M, hM⟩ := h
  exact ⟨op.onMap M, hM.step op⟩

theorem Represents.has_iff {M : SubscriptionMap} {tree : SubscriptionTree} (h : Represents M tree.root)
    {clientId filter : String} : tree.Has clientId filter ↔ ∃ qos, M (clientId, filter) = some qos := by
  unfold SubscriptionTree.Has
  simp only [h.allSubscriptions_eq, h.mem_flat]
  rfl

theorem has_of_step {tree : SubscriptionTree} (h : tree.Held) (op : TreeOp) {clientId filter : String}
    (hhas : (op.onTree tree).Has clientId filter) :
    tree.Has clientId filter ∨ ∃ qos, op = .subscribe clientId filter qos := by
  obtain ⟨M, hM⟩ := h
  rw [(hM.step op).has_iff] at hhas
  rw [hM.has_iff]
  obtain ⟨qos, hqos⟩ := hhas
  cases op with
  | subscribe clientId' filter' qos' =>
    simp only [TreeOp.onMap, SubscriptionMap.insert] at hqos
    split_ifs at hqos with hkey
    · cases hkey
      exact .inr ⟨qos', rfl⟩
    · exact .inl ⟨qos, hqos⟩
  | unsubscribe clientId' filter' =>
    simp only [TreeOp.onMap, SubscriptionMap.delete] at hqos
    split_ifs at hqos
    exact .inl ⟨qos, hqos⟩
  | unsubscribeAll clientId' =>
    simp only [TreeOp.onMap, SubscriptionMap.deleteClient] at hqos
    split_ifs at hqos
    exact .inl ⟨qos, hqos⟩

def SubscriptionTree.entries (tree : SubscriptionTree) : SubscriptionMap :=
  fun key => (tree.allSubscriptions.find? fun s => s.key == key).map Subscription.qos

theorem Represents.entries_eq {M : SubscriptionMap} {tree : SubscriptionTree} (h : Represents M tree.root) :
    tree.entries = M := by
  funext key
  obtain ⟨clientId, filter⟩ := key
  unfold SubscriptionTree.entries
  cases hfind : tree.allSubscriptions.find? fun s => s.key == (clientId, filter) with
  | some s =>
    have hfound := List.find?_some hfind
    have hkey : s.key = (clientId, filter) := beq_iff_eq.mp hfound
    have hmem := List.mem_of_find?_eq_some hfind
    rw [h.allSubscriptions_eq, h.mem_flat, hkey] at hmem
    exact hmem.symm
  | none =>
    cases hM : M (clientId, filter) with
    | none => rfl
    | some qos =>
      have hmem : { clientId, filter, qos } ∈ tree.allSubscriptions := by
        rw [h.allSubscriptions_eq, h.mem_flat]
        exact hM
      have hnot := List.find?_eq_none.mp hfind _ hmem
      exact absurd (beq_self_eq_true (clientId, filter)) hnot

theorem entries_step {tree : SubscriptionTree} (h : tree.Held) (op : TreeOp) :
    (op.onTree tree).entries = op.onMap tree.entries := by
  obtain ⟨M, hM⟩ := h
  rw [(hM.step op).entries_eq, hM.entries_eq]

theorem has_subscribe {tree : SubscriptionTree} (h : tree.Held) (clientId filter : String) (qos : QoS) :
    (tree.subscribe clientId filter qos).Has clientId filter := by
  obtain ⟨M, hM⟩ := h
  exact (hM.step (.subscribe clientId filter qos)).has_iff.mpr ⟨qos, if_pos rfl⟩

/-- How a filter matches a topic, segment by segment. -/
def segmentsMatch : List String → List String → Bool
  | ["#"], _ => true
  | [], topic => topic.isEmpty
  | _ :: _, [] => false
  | seg :: segs, t :: topic => (seg == "+" || seg == t) && segmentsMatch segs topic

def HashLast (filter : String) : Prop := "#" ∉ (splitSlash filter).dropLast

instance (filter : String) : Decidable (HashLast filter) := inferInstanceAs (Decidable (_ ∉ _))

theorem segmentsMatch_cons {seg : String} {segs : List String} (hseg : seg :: segs ≠ ["#"]) (t : String)
    (topic : List String) :
    segmentsMatch (seg :: segs) (t :: topic) = ((seg == "+" || seg == t) && segmentsMatch segs topic) := by
  rw [segmentsMatch.eq_def]
  split
  · simp_all
  · simp_all
  · simp_all
  · rename_i heq heq'
    obtain ⟨rfl, rfl⟩ := List.cons.inj heq
    obtain ⟨rfl, rfl⟩ := List.cons.inj heq'
    rfl

theorem segmentsMatch_nil {path : List String} :
    segmentsMatch path [] = true ↔ path = ["#"] ∨ path = [] := by
  rw [segmentsMatch.eq_def]
  split <;> simp_all

theorem mem_matchPaths_nil {path : List String} : path ∈ matchPaths [] ↔ path = ["#"] ∨ path = [] := by
  simp [matchPaths]

theorem mem_matchPaths_cons {seg t : String} {segs ts : List String} : seg :: segs ∈ matchPaths (t :: ts) ↔
    seg :: segs = ["#"] ∨ (seg = t ∨ seg = "+") ∧ segs ∈ matchPaths ts := by
  simp only [matchPaths, List.mem_cons, List.mem_append, List.mem_map, List.cons.injEq]
  constructor
  · rintro (hhash | ⟨p, hp, rfl, rfl⟩ | ⟨p, hp, rfl, rfl⟩)
    · exact .inl hhash
    · exact .inr ⟨.inl rfl, hp⟩
    · exact .inr ⟨.inr rfl, hp⟩
  · rintro (hhash | ⟨rfl | rfl, hp⟩)
    · exact .inl hhash
    · exact .inr (.inl ⟨segs, hp, rfl, rfl⟩)
    · exact .inr (.inr ⟨segs, hp, rfl, rfl⟩)

theorem segs_eq_nil_of_hash {segs : List String} (hlast : "#" ∉ ("#" :: segs).dropLast) : segs = [] := by
  by_contra hne
  rw [List.dropLast_cons_of_ne_nil hne] at hlast
  exact hlast List.mem_cons_self

theorem not_mem_dropLast_of_cons {seg : String} {segs : List String} (hlast : "#" ∉ (seg :: segs).dropLast) :
    "#" ∉ segs.dropLast := by
  intro hmem
  have hne : segs ≠ [] := List.ne_nil_of_mem (List.mem_of_mem_dropLast hmem)
  rw [List.dropLast_cons_of_ne_nil hne] at hlast
  exact hlast (List.mem_cons_of_mem seg hmem)

/-- With a `#` only last, a search visits the path of a filter exactly when its pattern accepts the topic. Induction
    on the segments. -/
theorem visited_iff_accepts (segs : List String) : "#" ∉ segs.dropLast → ∀ topic : List String,
    (segs ∈ matchPaths topic ↔ (segmentPattern segs).accepts topic = true) := by
  induction segs with
  | nil =>
    intro _ topic
    cases topic <;> simp [matchPaths, segmentPattern, Wildcard.Pattern.accepts, Wildcard.matchLevels]
  | cons seg segs ih =>
    intro hlast topic
    cases hash : seg == "#" with
    | true =>
      have hseg := beq_iff_eq.mp hash
      subst hseg
      rw [segs_eq_nil_of_hash hlast, accepts_hash]
      cases topic <;> simp [matchPaths]
    | false =>
      have hne : seg :: segs ≠ ["#"] := fun h => by simp [(List.cons.inj h).1] at hash
      cases topic with
      | nil =>
        rw [accepts_cons_nil segs hash, mem_matchPaths_nil]
        simp [hne]
      | cons t ts =>
        rw [accepts_cons segs t ts hash, mem_matchPaths_cons, Bool.and_eq_true, ← ih (not_mem_dropLast_of_cons hlast) ts,
          Bool.or_eq_true, beq_iff_eq, beq_iff_eq, or_iff_right hne, or_comm]

theorem segmentsMatch_eq_accepts (segs : List String) : "#" ∉ segs.dropLast → ∀ topic : List String,
    segmentsMatch segs topic = (segmentPattern segs).accepts topic := by
  induction segs with
  | nil =>
    intro _ topic
    cases topic <;> rfl
  | cons seg segs ih =>
    intro hlast topic
    cases hash : seg == "#" with
    | true =>
      have hseg := beq_iff_eq.mp hash
      subst hseg
      rw [segs_eq_nil_of_hash hlast, accepts_hash]
      cases topic <;> rfl
    | false =>
      have hne : seg :: segs ≠ ["#"] := fun h => by simp [(List.cons.inj h).1] at hash
      cases topic with
      | nil =>
        rw [accepts_cons_nil segs hash, Bool.eq_false_iff, ne_eq, segmentsMatch_nil]
        simp [hne]
      | cons t ts => rw [accepts_cons segs t ts hash, segmentsMatch_cons hne, ih (not_mem_dropLast_of_cons hlast)]

theorem mem_matchPaths_iff (topic path : List String) (hlast : "#" ∉ path.dropLast) :
    path ∈ matchPaths topic ↔ segmentsMatch path topic = true := by
  rw [visited_iff_accepts path hlast, segmentsMatch_eq_accepts path hlast]

theorem Represents.mem_lookup {M : SubscriptionMap} {tree : SubscriptionTree} (h : Represents M tree.root)
    (topic : String) (s : Subscription) :
    s ∈ tree.lookup topic ↔ M s.key = some s.qos ∧ splitSlash s.filter ∈ matchPaths (splitSlash topic) := by
  rw [SubscriptionTree.lookup, collectMatching_eq, h.collect_paths]

theorem lookup_keys_nodup (tree : SubscriptionTree) (topic : String) :
    ((tree.lookup topic).map Subscription.key).Nodup := by
  rw [SubscriptionTree.lookup, collectMatching_eq]
  exact (CollectedOnce.empty.collect _).once

theorem Represents.support_eq {M : SubscriptionMap} {node : TopicNode} (h : Represents M node) :
    M.support = {k | k ∈ node.flat.map Subscription.key} := by
  ext ⟨clientId, filter⟩
  simp only [SubscriptionMap.support, Set.mem_ofPred_eq, List.mem_map, Option.isSome_iff_exists]
  constructor
  · rintro ⟨qos, hM⟩
    exact ⟨{ clientId, filter, qos }, (h.mem_flat _).mpr hM, rfl⟩
  · rintro ⟨s, hs, hkey⟩
    exact ⟨s.qos, hkey ▸ (h.mem_flat s).mp hs⟩

theorem Represents.ncard_support {M : SubscriptionMap} {node : TopicNode} (h : Represents M node) :
    M.support.Finite ∧ M.support.ncard = node.flat.length := by
  classical
  have hset : M.support = ↑(node.flat.map Subscription.key).toFinset := by
    rw [h.support_eq]
    ext k
    simp
  refine ⟨hset ▸ Finset.finite_toSet _, ?_⟩
  rw [hset, Set.ncard_coe_finset, List.toFinset_card_of_nodup h.flat_keys_nodup, List.length_map]

/-- The tree that a sequence of operations makes holds the map that it makes: the list of all
    subscriptions has each entry once, the count is the size, and if `#` stands only last in the
    filters, a lookup finds each entry whose filter matches once and no other. -/
theorem tree_refines_map (ops : List TreeOp) :
    let tree := ops.foldl TreeOp.onTree SubscriptionTree.new
    let M := ops.foldl TreeOp.onMap SubscriptionMap.empty
    ((tree.allSubscriptions.map Subscription.key).Nodup ∧
      ∀ c f q, { clientId := c, filter := f, qos := q } ∈ tree.allSubscriptions ↔ M (c, f) = some q) ∧
    (M.support.Finite ∧ tree.count = M.support.ncard) ∧
    ((∀ c f q, M (c, f) = some q → HashLast f) → ∀ topic,
      ((tree.lookup topic).map Subscription.key).Nodup ∧
      ∀ c f q, { clientId := c, filter := f, qos := q } ∈ tree.lookup topic ↔
        M (c, f) = some q ∧ segmentsMatch (splitSlash f) (splitSlash topic) = true) := by
  intro tree M
  have hempty : Represents SubscriptionMap.empty SubscriptionTree.new.root := Represents.empty
  have h : Represents M tree.root := hempty.run ops
  refine ⟨⟨?_, fun c f q => ?_⟩, ?_, fun hlast topic => ⟨lookup_keys_nodup tree topic, fun c f q => ?_⟩⟩
  · rw [h.allSubscriptions_eq]
    exact h.flat_keys_nodup
  · rw [h.allSubscriptions_eq]
    exact h.mem_flat _
  · obtain ⟨hfin, hcard⟩ := h.ncard_support
    exact ⟨hfin, by rw [SubscriptionTree.count, countNode_eq, hcard]⟩
  · rw [h.mem_lookup]
    change M (c, f) = some q ∧ splitSlash f ∈ matchPaths (splitSlash topic) ↔ _
    constructor
    · rintro ⟨hM, hpath⟩
      exact ⟨hM, (mem_matchPaths_iff _ _ (hlast c f q hM)).mp hpath⟩
    · rintro ⟨hM, hmatch⟩
      exact ⟨hM, (mem_matchPaths_iff _ _ (hlast c f q hM)).mpr hmatch⟩

section
variable {tree : SubscriptionTree}

theorem SubscriptionTree.Held.support_finite (h : tree.Held) : tree.entries.support.Finite := by
  obtain ⟨M, hM⟩ := h
  rw [hM.entries_eq]
  exact hM.ncard_support.1

theorem count_eq_ncard (h : tree.Held) : tree.count = tree.entries.support.ncard := by
  obtain ⟨M, hM⟩ := h
  rw [hM.entries_eq, hM.ncard_support.2, SubscriptionTree.count, countNode_eq]

theorem SubscriptionTree.Held.mem_support (h : tree.Held) {clientId filter : String} :
    (clientId, filter) ∈ tree.entries.support ↔ tree.Has clientId filter := by
  obtain ⟨M, hM⟩ := h
  rw [hM.entries_eq, hM.has_iff]
  exact Option.isSome_iff_exists

theorem support_subscribe (h : tree.Held) (clientId filter : String) (qos : QoS) :
    (tree.subscribe clientId filter qos).entries.support = insert (clientId, filter) tree.entries.support := by
  have hentries : (tree.subscribe clientId filter qos).entries = tree.entries.insert clientId filter qos :=
    entries_step h (.subscribe clientId filter qos)
  ext key
  rw [hentries, Set.mem_insert_iff]
  by_cases hkey : key = (clientId, filter)
  · simp [SubscriptionMap.support, SubscriptionMap.insert, hkey]
  · simp [SubscriptionMap.support, SubscriptionMap.insert, hkey]

theorem support_unsubscribe (h : tree.Held) (clientId filter : String) :
    (tree.unsubscribe clientId filter).entries.support = tree.entries.support \ {(clientId, filter)} := by
  have hentries : (tree.unsubscribe clientId filter).entries = tree.entries.delete clientId filter :=
    entries_step h (.unsubscribe clientId filter)
  ext key
  rw [hentries, Set.mem_sdiff, Set.mem_singleton_iff]
  by_cases hkey : key = (clientId, filter)
  · simp [SubscriptionMap.support, SubscriptionMap.delete, hkey]
  · simp [SubscriptionMap.support, SubscriptionMap.delete, hkey]

theorem support_unsubscribeAll (h : tree.Held) (clientId : String) :
    (tree.unsubscribeAll clientId).entries.support = tree.entries.support \ {key | key.1 = clientId} := by
  have hentries : (tree.unsubscribeAll clientId).entries = tree.entries.deleteClient clientId :=
    entries_step h (.unsubscribeAll clientId)
  ext key
  rw [hentries, Set.mem_sdiff]
  by_cases hkey : key.1 = clientId
  · simp [SubscriptionMap.support, SubscriptionMap.deleteClient, hkey]
  · simp [SubscriptionMap.support, SubscriptionMap.deleteClient, hkey]

theorem has_subscribe_iff (h : tree.Held) (clientId filter : String) (qos : QoS) {c f : String} :
    (tree.subscribe clientId filter qos).Has c f ↔ (c, f) = (clientId, filter) ∨ tree.Has c f := by
  have hafter : (tree.subscribe clientId filter qos).Held := h.step (.subscribe clientId filter qos)
  rw [← hafter.mem_support, support_subscribe h, Set.mem_insert_iff, h.mem_support]

theorem has_unsubscribe_iff (h : tree.Held) (clientId filter : String) {c f : String} :
    (tree.unsubscribe clientId filter).Has c f ↔ tree.Has c f ∧ (c, f) ≠ (clientId, filter) := by
  have hafter : (tree.unsubscribe clientId filter).Held := h.step (.unsubscribe clientId filter)
  rw [← hafter.mem_support, support_unsubscribe h, Set.mem_sdiff, h.mem_support, Set.mem_singleton_iff]

theorem has_unsubscribeAll_iff (h : tree.Held) (clientId : String) {c f : String} :
    (tree.unsubscribeAll clientId).Has c f ↔ tree.Has c f ∧ c ≠ clientId := by
  have hafter : (tree.unsubscribeAll clientId).Held := h.step (.unsubscribeAll clientId)
  rw [← hafter.mem_support, support_unsubscribeAll h, Set.mem_sdiff, h.mem_support]
  rfl

end

theorem Represents.subs_of_reaches {M : SubscriptionMap} {node : TopicNode} (h : Represents M node) {path : List String}
    {subs : List Subscription} {children : List (String × TopicNode)} (hr : Trie.Reaches node path (.node subs children)) :
    node.subsAt path = subs := by
  rw [TopicNode.subsAt, Trie.valueAt, (h.distinct.reached hr).2]
  rfl

/-- At every node of the tree that a sequence of operations makes: the names of the children differ, the
    filters are the ones that spell the way there, and each client stands once. -/
theorem tree_wellFormed (ops : List TreeOp) (path : List String) (subs : List Subscription)
    (children : List (String × TopicNode))
    (hr : Trie.Reaches (ops.foldl TreeOp.onTree SubscriptionTree.new).root path (.node subs children)) :
    (children.map Prod.fst).Nodup ∧ (∀ s ∈ subs, splitSlash s.filter = path) ∧
      (subs.map Subscription.clientId).Nodup := by
  have hempty : Represents SubscriptionMap.empty SubscriptionTree.new.root := Represents.empty
  have h := hempty.run ops
  have hsubs := h.subs_of_reaches hr
  exact ⟨(h.distinct.reached hr).1, hsubs ▸ h.path path, hsubs ▸ h.clients path⟩

theorem tree_wellFormed_example :
    let ops := [TreeOp.subscribe "c" "a/+" .AtMostOnce, .subscribe "d" "a/+" .AtLeastOnce, .subscribe "c" "a/+" .ExactlyOnce]
    let subs : List Subscription := [⟨"c", "a/+", .ExactlyOnce⟩, ⟨"d", "a/+", .AtLeastOnce⟩]
    Trie.Reaches (ops.foldl TreeOp.onTree SubscriptionTree.new).root ["a", "+"] (.node subs []) ∧
      (([] : List (String × TopicNode)).map Prod.fst).Nodup ∧ (∀ s ∈ subs, splitSlash s.filter = ["a", "+"]) ∧
      (subs.map Subscription.clientId).Nodup := by
  intro ops subs
  have hr : Trie.Reaches (ops.foldl TreeOp.onTree SubscriptionTree.new).root ["a", "+"] (.node subs []) :=
    .down List.mem_cons_self (.down List.mem_cons_self (.here _))
  exact ⟨hr, tree_wellFormed ops _ _ _ hr⟩

end AtomMqtt
