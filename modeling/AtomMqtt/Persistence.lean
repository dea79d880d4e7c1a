import AtomMqtt.Action

set_option autoImplicit false

/-! The database: its tables, the background writer and the restore at startup. -/
namespace AtomMqtt

structure SessionRow where
  protocolVersion : ℤ
  cleanSession : Bool
  keepAlive : UInt16
  username : Option String
  deriving DecidableEq, Repr

structure RetainedRow where
  payload : Bytes
  qos : ℤ
  deriving DecidableEq, Repr

structure WillRow where
  topic : String
  payload : Bytes
  qos : ℤ
  retain : Bool
  delayInterval : UInt32
  deriving DecidableEq, Repr

structure Database where
  sessions : DashMap String SessionRow
  subscriptions : DashMap (String × String) ℤ
  retainedMessages : DashMap String RetainedRow
  willMessages : DashMap String (ThreadId × WillRow)

def Database.empty : Database := { sessions := ∅, subscriptions := ∅, retainedMessages := ∅, willMessages := ∅ }

def deleteClientRows (clientId : String) (rows : DashMap (String × String) ℤ) : DashMap (String × String) ℤ :=
  (rows.keys.filter fun key => key.1 == clientId).foldl (fun rows key => rows.erase key) rows

/-- The statement that an event stands for. -/
def Database.execute (db : Database) (sender : ThreadId) : PersistEvent → Database
  | .SaveSession clientId protocolVersion cleanSession keepAlive username =>
    { db with sessions := db.sessions.insert clientId { protocolVersion, cleanSession, keepAlive, username } }
  | .RemoveSession clientId => { db with sessions := db.sessions.erase clientId }
  | .SaveSubscription clientId filter qos =>
    { db with subscriptions := db.subscriptions.insert (clientId, filter) qos }
  | .RemoveSubscription clientId filter => { db with subscriptions := db.subscriptions.erase (clientId, filter) }
  | .RemoveClientSubscriptions clientId => { db with subscriptions := deleteClientRows clientId db.subscriptions }
  | .SaveRetained topic payload qos =>
    { db with retainedMessages := db.retainedMessages.insert topic { payload, qos } }
  | .RemoveRetained topic => { db with retainedMessages := db.retainedMessages.erase topic }
  | .SaveWill clientId topic payload qos retain delayInterval =>
    { db with willMessages := db.willMessages.insert clientId (sender, { topic, payload, qos, retain, delayInterval }) }
  | .RemoveWill clientId => { db with willMessages := db.willMessages.erase clientId }
  | .Shutdown => db

def qosOfI32 (qos : ℤ) : QoS :=
  if qos = 2 then .ExactlyOnce else if qos = 1 then .AtLeastOnce else .AtMostOnce

def Database.loadSessions (db : Database) : List SessionState :=
  db.sessions.entries.map fun ⟨clientId, row⟩ =>
    { clientId, protocolVersion := if row.protocolVersion = 5 then .V5 else .V311, cleanSession := row.cleanSession,
      keepAlive := row.keepAlive, connected := false, username := row.username }

def Database.loadSubscriptions (db : Database) : List Subscription :=
  db.subscriptions.entries.map fun ⟨(clientId, filter), qos⟩ => { clientId, filter, qos := qosOfI32 qos }

def Database.loadRetained (db : Database) : List RetainedMessage :=
  db.retainedMessages.entries.map fun ⟨topic, row⟩ => { topic, payload := row.payload, qos := qosOfI32 row.qos }

def Database.loadWills (db : Database) : List (ThreadId × WillMessage) :=
  db.willMessages.entries.map fun ⟨clientId, sender, row⟩ =>
    (sender, { clientId, topic := row.topic, payload := row.payload, qos := qosOfI32 row.qos, retain := row.retain,
               delayInterval := row.delayInterval })

/-- The state restored from the tables, before the startup cleanup. -/
def Database.restore (db : Database) : BrokerState :=
  { BrokerState.new with
    sessions := db.loadSessions.foldl (fun map session => map.insert session.clientId session) ∅
    subscriptions := db.loadSubscriptions.foldl (fun tree s => tree.subscribe s.clientId s.filter s.qos)
      SubscriptionTree.new
    retained := db.loadRetained.foldl (fun map msg => map.insert msg.topic msg) ∅
    wills := db.loadWills.foldl (fun map will => map.insert will.2.clientId will) ∅ }

/-- The clients whose session is clean, and after them those that have subscriptions but no session. -/
def startupCleanup (state : BrokerState) : BrokerState × List PersistEvent :=
  let staleClients := (state.sessions.values.filter fun session => session.cleanSession).map (·.clientId)
  let state := staleClients.foldl (fun state clientId =>
    { state with subscriptions := state.subscriptions.unsubscribeAll clientId,
                 sessions := state.sessions.erase clientId }) state
  let staleEvents := staleClients.flatMap fun clientId =>
    [.RemoveClientSubscriptions clientId, .RemoveSession clientId]
  let orphanClients := ((state.subscriptions.allSubscriptions.filter fun s =>
    (state.sessions.lookup s.clientId).isNone).map (·.clientId)).dedup
  let state := orphanClients.foldl (fun state clientId =>
    { state with subscriptions := state.subscriptions.unsubscribeAll clientId }) state
  let orphanEvents := orphanClients.map .RemoveClientSubscriptions
  ({ state with metrics := { state.metrics with subscriptionsActive := state.subscriptions.count } },
    staleEvents ++ orphanEvents)

end AtomMqtt
