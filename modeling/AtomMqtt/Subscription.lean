import AtomMqtt.Common
import AtomMqtt.Library.Trie

set_option autoImplicit false

/-! The subscription tree. -/
namespace AtomMqtt
open NamedTrie

structure Subscription where
  clientId : String
  filter : String
  qos : QoS
  deriving DecidableEq, Repr

/-- The value of a node is its `subscriptions`. -/
abbrev TopicNode := Trie String (List Subscription)

def TopicNode.new : TopicNode := .node [] []

structure SubscriptionTree where
  root : TopicNode

def SubscriptionTree.new : SubscriptionTree := { root := TopicNode.new }

/-- The QoS of the first subscription of the same client and filter is replaced; if there is none,
    the new one is pushed. -/
def setOrPush (subscription : Subscription) : List Subscription → List Subscription
  | [] => [subscription]
  | existing :: rest =>
    if existing.clientId == subscription.clientId && existing.filter == subscription.filter then
      { existing with qos := subscription.qos } :: rest
    else existing :: setOrPush subscription rest

def insertNode (node : TopicNode) (segments : List String) (subscription : Subscription) : TopicNode :=
  match segments, node with
  | [], .node subscriptions children => .node (setOrPush subscription subscriptions) children
  | segment :: rest, .node subscriptions children =>
    match children.lookup segment with
    | some _ => .node subscriptions (modifyFirst segment (fun child => insertNode child rest subscription) children)
    | none => .node subscriptions (children ++ [(segment, insertNode TopicNode.new rest subscription)])

def SubscriptionTree.subscribe (self : SubscriptionTree) (clientId filter : String) (qos : QoS) : SubscriptionTree :=
  { root := insertNode self.root (splitSlash filter) { clientId, filter, qos } }

/-- `subscriptions.retain(|s| s.client_id != client_id)` -/
def withoutClient (clientId : String) (subscriptions : List Subscription) : List Subscription :=
  subscriptions.filter fun s => s.clientId != clientId

def removeSubscription (node : TopicNode) (segments : List String) (clientId : String) : TopicNode :=
  match segments, node with
  | [], .node subscriptions children => .node (withoutClient clientId subscriptions) children
  | segment :: rest, .node subscriptions children =>
    .node subscriptions (modifyFirst segment (fun child => removeSubscription child rest clientId) children)

def SubscriptionTree.unsubscribe (self : SubscriptionTree) (clientId filter : String) : SubscriptionTree :=
  { root := removeSubscription self.root (splitSlash filter) clientId }

mutual

def removeClient (clientId : String) : TopicNode → TopicNode
  | .node subscriptions children =>
    .node (withoutClient clientId subscriptions) (removeClientBelow clientId children)

def removeClientBelow (clientId : String) : List (String × TopicNode) → List (String × TopicNode)
  | [] => []
  | (segment, child) :: rest => (segment, removeClient clientId child) :: removeClientBelow clientId rest

end

def SubscriptionTree.unsubscribeAll (self : SubscriptionTree) (clientId : String) : SubscriptionTree :=
  { root := removeClient clientId self.root }

def Subscription.key (s : Subscription) : String × String := (s.clientId, s.filter)

/-- The `results` and the keys `seen` of a search. -/
abbrev Collected := List Subscription × List (String × String)

def collect (acc : Collected) (subscriptions : List Subscription) : Collected :=
  subscriptions.foldl (fun (results, seen) sub =>
    if seen.contains sub.key then (results, seen) else (results ++ [sub], sub.key :: seen)) acc

/-- The subscriptions of the child named `#`, if there is one. -/
def collectWildcard (children : List (String × TopicNode)) (acc : Collected) : Collected :=
  match children.lookup "#" with
  | some (.node subscriptions _) => collect acc subscriptions
  | none => acc

def collectMatching (node : TopicNode) (segments : List String) (acc : Collected) : Collected :=
  match segments, node with
  | [], .node subscriptions children => collect (collectWildcard children acc) subscriptions
  | segment :: rest, .node _ children =>
    let acc := collectWildcard children acc
    let acc := (children.lookup segment).elim acc fun child => collectMatching child rest acc
    (children.lookup "+").elim acc fun plusChild => collectMatching plusChild rest acc

def SubscriptionTree.lookup (self : SubscriptionTree) (topic : String) : List Subscription :=
  (collectMatching self.root (splitSlash topic) ([], [])).1

mutual

def countNode : TopicNode → ℕ
  | .node subscriptions children => subscriptions.length + countBelow children

def countBelow : List (String × TopicNode) → ℕ
  | [] => 0
  | (_, child) :: rest => countNode child + countBelow rest

end

def SubscriptionTree.count (self : SubscriptionTree) : ℕ := countNode self.root

mutual

def collectAll (acc : Collected) : TopicNode → Collected
  | .node subscriptions children => collectAllBelow (collect acc subscriptions) children

def collectAllBelow (acc : Collected) : List (String × TopicNode) → Collected
  | [] => acc
  | (_, child) :: rest => collectAllBelow (collectAll acc child) rest

end

def SubscriptionTree.allSubscriptions (self : SubscriptionTree) : List Subscription :=
  (collectAll ([], []) self.root).1

end AtomMqtt
