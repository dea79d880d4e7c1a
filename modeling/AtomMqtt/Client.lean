import AtomMqtt.Library.Threads
import AtomMqtt.V3Codec

set_option autoImplicit false

/-! The command line client. `pub`, `sub` and `shell` as programs over the socket, the keyboard and the console,
with the tasks that they start next to themselves. The address of the broker and the wording of what is shown
and logged are left out. -/
namespace AtomMqtt.Client
open Programs

def MAX_PACKET_SIZE : ℕ := 10 * 1024 * 1024

structure Args where
  clientId : String
  username : Option String
  password : Option String
  deriving DecidableEq, Repr

structure PubArgs extends Args where
  topic : String
  payload : String
  qos : UInt8
  retain : Bool
  deriving DecidableEq, Repr

structure SubArgs extends Args where
  topic : String
  qos : UInt8
  deriving DecidableEq, Repr

/-- `try_read_buf`; no bytes at all are `Ok(0)`. -/
inductive ReadResult where
  | bytes (bytes : Bytes)
  | wouldBlock
  | failed
  deriving DecidableEq, Repr, Inhabited

/-- `try_write` -/
inductive WriteResult where
  | written (n : ℕ)
  | wouldBlock
  | failed
  deriving DecidableEq, Repr, Inhabited

inductive Task where
  | main
  | receiver
  | ping
  | ctrlC
  deriving DecidableEq, Repr

inductive Shown where
  | connecting
  | published (topic : String) (qos : QoS)
  | pubAckReceived
  | disconnected
  | waiting (topic : String)
  | message (packet : V3.PublishPacket)
  | subscriptionConfirmed (codes : List V3.SubAckReturnCode)
  | unsubscribeConfirmed (packetId : UInt16)
  | signalled
  | connected (clientId : String)
  | commands
  | bye
  | pingSent
  | usage (command : String)
  | subscribing (topic : String)
  | unsubscribed (topic : String)
  | unknown (command : String)
  deriving DecidableEq, Repr

/-- `read_line` answers `none` if it fails, and the empty line at the end of the input. `write_all` answers how many
    bytes went out if it failed. -/
inductive Action where
  | connect
  | writeAll (data : Bytes)
  | readable
  | tryRead
  | writable
  | tryWrite (data : Bytes)
  | nextPacketId
  | loadRunning
  | stopRunning
  | spawn (task : Task)
  | tick
  | ctrlC
  | readLine
  | println (shown : Shown)
  | finish (ok : Bool)
  deriving DecidableEq, Repr

@[reducible] def Reply : Action → Type
  | .connect => Bool
  | .writeAll _ => Option ℕ
  | .readable => Bool
  | .tryRead => ReadResult
  | .writable => Bool
  | .tryWrite _ => WriteResult
  | .nextPacketId => UInt16
  | .loadRunning => Bool
  | .readLine => Option String
  | _ => Unit

instance (a : Action) : Inhabited (Reply a) := by
  cases a <;> exact inferInstance

abbrev Job := Program Action Reply

def ask (a : Action) : Job (Reply a) := .act a .ret

def run (a : Action) : Job PUnit := .act a fun _ => .ret ⟨⟩

inductive Input where
  | go
  | ready (ok : Bool)
  | read (r : ReadResult)
  | write (r : WriteResult)
  | wrote (failedAfter : Option ℕ)
  | line (line : Option String)
  deriving DecidableEq, Repr

/-- The statics and the `Arc`s of the process; `finished` when `main` has returned. -/
structure Process where
  pid : UInt16
  running : Bool
  spawned : List Task
  finished : Bool
  deriving DecidableEq, Repr

def Process.new : Process := { pid := 1, running := true, spawned := [], finished := false }

/-- `next_packet_id`; no other task takes an id in between. -/
def Process.nextPacketId (s : Process) : Process × UInt16 :=
  let id := if s.pid = 0 then 1 else s.pid
  ({ s with pid := id + 1 }, id)

def Process.perform (s : Process) (a : Action) (input : Input) : Option (Process × Reply a) :=
  if s.finished then none
  else
    match a, input with
    | .connect, .ready ok => some (s, ok)
    | .writeAll _, .wrote none => some (s, (none : Option ℕ))
    | .writeAll data, .wrote (some n) => if n ≤ data.length then some (s, some n) else none
    | .readable, .ready ok => some (s, ok)
    | .tryRead, .read r => some (s, r)
    | .writable, .ready ok => some (s, ok)
    | .tryWrite data, .write (.written n) => if n ≤ data.length then some (s, .written n) else none
    | .tryWrite _, .write r => some (s, r)
    | .nextPacketId, .go => some s.nextPacketId
    | .loadRunning, .go => some (s, s.running)
    | .stopRunning, .go => some ({ s with running := false }, ())
    | .spawn task, .go => some ({ s with spawned := task :: s.spawned }, ())
    | .tick, .go => some (s, ())
    | .ctrlC, .go => some (s, ())
    | .readLine, .line line => some (s, line)
    | .println _, .go => some (s, ())
    | .finish _, .go => some ({ s with finished := true }, ())
    | _, _ => none

/-- What a packet is read for. -/
inductive Stage where
  | pubConnack (args : PubArgs) (qos : QoS)
  | pubAck
  | subConnack (args : SubArgs) (qos : QoS)
  | subAck (topic : String)
  | listen
  | shellConnack (args : Args)
  | receive
  deriving DecidableEq, Repr

/-- Where a task stands: `sending` inside the loop of `send_bytes_arc`, `reading` at the head of the loop of
    `read_packet_by_ref` or `read_packet_by_mut`, `awaiting` inside that of `try_read_arc` or `read_into_buf`. -/
inductive Control where
  | pub (args : PubArgs)
  | sub (args : SubArgs)
  | shell (args : Args)
  | sending (left : Bytes) (next failure : Control)
  | reading (buf : Bytes) (stage : Stage)
  | awaiting (buf : Bytes) (stage : Stage)
  | listening (buf : Bytes)
  | receiver (buf : Bytes)
  | prompt
  | printing (shown : Shown)
  | goodbye
  | pingLoop
  | cancel
  | ending (ok : Bool)
  | exited
  deriving DecidableEq, Repr

def parseQos (v : UInt8) : Option QoS := QoS.fromU8 v

def encoding (packet : V3.MqttPacketV3) (next : Bytes → Job Control) (failure : Job Control) : Job Control :=
  match V3.encodePacket packet with
  | .ok bytes => next bytes
  | .error _ => failure

def finish (ok : Bool) : Job Control := do
  run (.finish ok)
  return .exited

def sendRest (left : Bytes) (next failure : Control) : Job Control :=
  if left.isEmpty then return next
  else do
    match ← ask (.tryWrite left) with
    | .written n => return if (left.drop n).isEmpty then next else .sending (left.drop n) next failure
    | .wouldBlock => return if ← ask .writable then .sending left next failure else failure
    | .failed => return failure

def sendBytesArc (bytes : Bytes) (next failure : Control) : Job Control := do
  if ← ask .writable then sendRest bytes next failure
  else return failure

def listening (buf : Bytes) : Job Control := do
  return if ← ask .loadRunning then .reading buf .listen else .ending true

def receiving (buf : Bytes) : Job Control := do
  return if ← ask .loadRunning then .reading buf .receive else .exited

def readFailed (buf : Bytes) : Stage → Job Control
  | .listen => do return if ← ask .loadRunning then .ending true else .listening buf
  | .receive => do
    let _ ← ask .loadRunning
    return .exited
  | _ => finish false

/-- `try_read_arc` and `read_into_buf`, with the checks of their callers. -/
def tryReadBuf (buf : Bytes) (stage : Stage) : Job Control := do
  if ← ask .readable then
    match ← ask .tryRead with
    | .bytes bytes =>
      if bytes.isEmpty then readFailed buf stage
      else if MAX_PACKET_SIZE < (buf ++ bytes).length then readFailed (buf ++ bytes) stage
      else return .reading (buf ++ bytes) stage
    | .wouldBlock => return .awaiting buf stage
    | .failed => readFailed buf stage
  else readFailed buf stage

def disconnect : Job Control :=
  encoding .Disconnect
    (fun bytes => do
      let _ ← ask (.writeAll bytes)
      run (.println .disconnected)
      finish true)
    (do
      run (.println .disconnected)
      finish true)

def connectPacket (args : Args) : V3.ConnectPacket where
  clientId := args.clientId
  cleanSession := true
  keepAlive := 60
  will := none
  username := args.username
  password := args.password

/-- A PUBLISH has an id unless its QoS is 0. -/
def packetIdFor (qos : QoS) : Job (Option UInt16) :=
  if qos != .AtMostOnce then some <$> ask .nextPacketId else pure none

/-- `run_pub` from the accepting CONNACK on. What is left in the buffer goes with it. -/
def publish (args : PubArgs) (qos : QoS) : Job Control := do
  let packetId ← packetIdFor qos
  encoding (.Publish { topic := args.topic, payload := asBytes args.payload, qos, retain := args.retain, packetId })
    (fun bytes => do
      match ← ask (.writeAll bytes) with
      | some _ => finish false
      | none => do
        run (.println (.published args.topic qos))
        if qos == .AtLeastOnce then return .reading [] .pubAck else disconnect)
    (finish false)

/-- `run_sub` from the accepting CONNACK on. -/
def subscribe (args : SubArgs) (qos : QoS) (buf : Bytes) : Job Control := do
  let packetId ← ask .nextPacketId
  encoding (.Subscribe { packetId, filters := [{ path := args.topic, qos }] })
    (fun bytes => sendBytesArc bytes (.reading buf (.subAck args.topic)) (.ending false)) (finish false)

/-- The PUBACK for a PUBLISH of QoS 1, whatever becomes of it. -/
def acknowledge (p : V3.PublishPacket) (next : Control) (otherwise : Job Control) : Job Control :=
  match p.packetId with
  | some packetId =>
    if p.qos == .AtLeastOnce then
      encoding (.PubAck { packetId }) (fun bytes => sendBytesArc bytes next next) otherwise
    else otherwise
  | none => otherwise

/-- What is done with the packet, and with what is left in the buffer. -/
def handlePacket (stage : Stage) (packet : V3.MqttPacketV3) (buf : Bytes) : Job Control :=
  match stage with
  | .pubConnack args qos =>
    match packet with
    | .ConnAck ack => if ack.returnCode = .Accepted then publish args qos else finish false
    | _ => finish false
  | .pubAck =>
    match packet with
    | .PubAck _ => do
      run (.println .pubAckReceived)
      disconnect
    | _ => disconnect
  | .subConnack args qos =>
    match packet with
    | .ConnAck ack => if ack.returnCode = .Accepted then subscribe args qos buf else finish false
    | _ => finish false
  | .subAck topic => do
    run (.spawn .ping)
    run (.println (.waiting topic))
    run (.spawn .ctrlC)
    listening buf
  | .listen =>
    match packet with
    | .Publish p => do
      run (.println (.message p))
      acknowledge p (.listening buf) (listening buf)
    | _ => listening buf
  | .shellConnack args =>
    match packet with
    | .ConnAck ack =>
      if ack.returnCode = .Accepted then do
        run (.println (.connected args.clientId))
        run (.spawn .ctrlC)
        run (.spawn .receiver)
        run (.spawn .ping)
        run (.println .commands)
        return .prompt
      else finish false
    | _ => finish false
  | .receive =>
    match packet with
    | .Publish p => do
      run (.println (.message p))
      acknowledge p (.receiver buf) (receiving buf)
    | .SubAck ack => do
      run (.println (.subscriptionConfirmed ack.returnCodes))
      receiving buf
    | .UnsubAck ack => do
      run (.println (.unsubscribeConfirmed ack.packetId))
      receiving buf
    | _ => receiving buf

/-- `read_packet_by_ref` and `read_packet_by_mut` -/
def readPacket (buf : Bytes) (stage : Stage) : Job Control :=
  match V3.decodePacket buf with
  | .ok (some (packet, size)) => handlePacket stage packet (buf.drop size)
  | .ok none => tryReadBuf buf stage
  | .error _ => readFailed buf stage

def runPub (args : PubArgs) : Job Control :=
  match parseQos args.qos with
  | none => finish false
  | some qos => do
    run (.println .connecting)
    if ← ask .connect then
      encoding (.Connect (connectPacket args.toArgs))
        (fun bytes => do
          match ← ask (.writeAll bytes) with
          | some _ => finish false
          | none => return .reading [] (.pubConnack args qos))
        (finish false)
    else finish false

def runSub (args : SubArgs) : Job Control :=
  match parseQos args.qos with
  | none => finish false
  | some qos => do
    if ← ask .connect then
      encoding (.Connect (connectPacket args.toArgs))
        (fun bytes => sendBytesArc bytes (.reading [] (.subConnack args qos)) (.ending false)) (finish false)
    else finish false

def runShell (args : Args) : Job Control := do
  if ← ask .connect then
    encoding (.Connect (connectPacket args))
      (fun bytes => sendBytesArc bytes (.reading [] (.shellConnack args)) (.ending false)) (finish false)
  else finish false

/-- One turn of `ping_loop`. What is written of the PINGREQ is not looked at. -/
def pingLoop : Job Control := do
  if ← ask .loadRunning then do
    run .tick
    if ← ask .loadRunning then
      encoding .PingReq
        (fun bytes => do
          if ← ask .writable then
            match ← ask (.tryWrite bytes) with
            | .written _ => return .pingLoop
            | _ => return .exited
          else return .exited)
        (return .pingLoop)
    else return .exited
  else return .exited

/-- The task that waits for Ctrl+C. -/
def cancel : Job Control := do
  run .ctrlC
  run (.println .signalled)
  run .stopRunning
  return .exited

def wordsLoop : List Char → List Char → List (List Char)
  | word, [] => if word.isEmpty then [] else [word]
  | word, c :: rest =>
    if isWhitespace c then (if word.isEmpty then wordsLoop [] rest else word :: wordsLoop [] rest)
    else wordsLoop (word ++ [c]) rest

/-- `str::split_whitespace` -/
def splitWhitespace (s : String) : List String := (wordsLoop [] s.toList).map String.ofList

def digits (acc : ℕ) : List Char → Option ℕ
  | [] => some acc
  | c :: rest => if c.isDigit then digits (10 * acc + (c.toNat - '0'.toNat)) rest else none

/-- `parse::<u8>`; a sign `+` may come first. -/
def parseU8 (s : String) : Option UInt8 :=
  let cs :=
    match s.toList with
    | '+' :: rest => rest
    | cs => cs
  if cs.isEmpty then none
  else (digits 0 cs).bind fun n => if n < 256 then some (UInt8.ofNat n) else none

/-- `parse_qos(parts[i].parse::<u8>().unwrap_or(0))` -/
def qosOption (part : String) : Option QoS := parseQos ((parseU8 part).getD 0)

/-- The options of the command `pub`; `none` if a QoS is not valid. -/
def pubOptions : List String → QoS → Bool → Option (QoS × Bool)
  | [], qos, retain => some (qos, retain)
  | [part], qos, retain => some (qos, if part == "-r" then true else retain)
  | part :: value :: rest, qos, retain =>
    if part == "-q" then
      match qosOption value with
      | none => none
      | some qos => pubOptions rest qos retain
    else pubOptions (value :: rest) qos (if part == "-r" then true else retain)

/-- The QoS of the command `sub`, looked for in one place only. -/
def subOption : List String → Option QoS
  | flag :: value :: _ => if flag == "-q" then qosOption value else some .AtMostOnce
  | _ => some .AtMostOnce

def sendPacket (packet : V3.MqttPacketV3) (shown : Shown) : Job Control :=
  encoding packet (fun bytes => sendBytesArc bytes (.printing shown) (.ending false)) (finish false)

def leave : Job Control := do
  run .stopRunning
  encoding .Disconnect (fun bytes => sendBytesArc bytes .goodbye .goodbye) (return .goodbye)

def command : List String → Job Control
  | [] => return .prompt
  | name :: params =>
    if name == "quit" || name == "exit" || name == "q" then do
      run (.println .bye)
      leave
    else if name == "ping" then sendPacket .PingReq .pingSent
    else if name == "pub" then
      match params with
      | topic :: payload :: options =>
        match pubOptions options .AtMostOnce false with
        | none => finish false
        | some (qos, retain) => do
          let packetId ← packetIdFor qos
          sendPacket (.Publish { topic, payload := asBytes payload, qos, retain, packetId }) (.published topic qos)
      | _ => do
        run (.println (.usage name))
        return .prompt
    else if name == "sub" then
      match params with
      | topic :: options =>
        match subOption options with
        | none => finish false
        | some qos => do
          let packetId ← ask .nextPacketId
          sendPacket (.Subscribe { packetId, filters := [{ path := topic, qos }] }) (.subscribing topic)
      | [] => do
        run (.println (.usage name))
        return .prompt
    else if name == "unsub" then
      match params with
      | topic :: _ => do
        let packetId ← ask .nextPacketId
        sendPacket (.Unsubscribe { packetId, filters := [topic] }) (.unsubscribed topic)
      | [] => do
        run (.println (.usage name))
        return .prompt
    else do
      run (.println (.unknown name))
      return .prompt

/-- One turn of the loop of `run_shell`. -/
def prompt : Job Control := do
  if ← ask .loadRunning then
    match ← ask .readLine with
    | none => finish false
    | some line => if line.isEmpty then leave else command (splitWhitespace (trim line))
  else leave

def body : Control → Job Control
  | .pub args => runPub args
  | .sub args => runSub args
  | .shell args => runShell args
  | .sending left next failure => sendRest left next failure
  | .reading buf stage => readPacket buf stage
  | .awaiting buf stage => tryReadBuf buf stage
  | .listening buf => listening buf
  | .receiver buf => receiving buf
  | .prompt => prompt
  | .printing shown => do
    run (.println shown)
    return .prompt
  | .goodbye => do
    run (.println .disconnected)
    finish true
  | .pingLoop => pingLoop
  | .cancel => cancel
  | .ending ok => finish ok
  | .exited => return .exited

/-- The commands start in `main`, the other tasks when they have been spawned. -/
def Process.start (s : Process) : Task → Control → Bool
  | .main, .pub _ => true
  | .main, .sub _ => true
  | .main, .shell _ => true
  | .receiver, .receiver buf => buf.isEmpty && s.spawned.contains .receiver
  | .ping, .pingLoop => s.spawned.contains .ping
  | .ctrlC, .cancel => s.spawned.contains .ctrlC
  | _, _ => false

def clientSystem : System Task Process Action Reply Control Input Empty where
  start := Process.start
  body := fun _ => body
  perform := fun _ => Process.perform
  world := fun _ w => w.elim

abbrev ClientState := Config Task Process Action Reply Control

abbrev ClientEvent := Event Task Action Reply Control Empty

abbrev ClientMove := Move Task Control Input Empty

def initial : ClientState := { shared := Process.new, thread := fun _ => .fresh }

def execute (moves : List ClientMove) : Option (List ClientEvent × ClientState) :=
  clientSystem.execWhere (fun _ _ _ _ => true) [] initial moves

theorem execute_run {moves : List ClientMove} {evs : List ClientEvent} {cfg : ClientState}
    (h : execute moves = some (evs, cfg)) : clientSystem.Run initial evs cfg :=
  System.execWhere_run _ (fun _ _ _ _ _ => trivial) .nil h

def mainMoves (start : Control) (inputs : List Input) : List ClientMove := .spawn .main start :: inputs.map (.act .main)

def startsMain (start : Control) : ClientEvent → Bool
  | .spawn .main c => c == start
  | _ => false

theorem mem_of_startsMain {evs : List ClientEvent} {start : Control} (h : evs.any (startsMain start) = true) :
    .spawn .main start ∈ evs := by
  obtain ⟨e, he, hstarts⟩ := List.any_eq_true.mp h
  cases e with
  | spawn i c =>
    cases i with
    | main =>
      obtain rfl : c = start := eq_of_beq hstarts
      exact he
    | _ => cases hstarts
  | _ => cases hstarts

end AtomMqtt.Client
