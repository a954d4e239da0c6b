import CipherMQ.Json
import CipherMQ.RateLimiter
import CipherMQ.ServerState
import CipherMQ.Utf8

/-!
# The status the dashboard shows

The admin server answers the command `json` with one line that describes the
broker, and the admin client reads the line back into a record of its own.
The two programs name the fields independently of each other.  Every field
that the client reads is one the server has written, so the record holds what
the server has read, whatever the names of queues, exchanges, routing keys and
clients are made of, and one answer is never taken for the beginning of the
next.

Lengths and totals are machine words and wrap around.
-/

namespace CipherMQ

namespace Admin

open Json (objectOf required withDefault asBool asNumber asString asList asMap)

/-! ## The server -/

/-- The counters of the server, as one request reads them. -/
structure Counters where
  messagesPublished : UInt64
  messagesAcked : UInt64
  messagesDelivered : UInt64
  errorsTotal : UInt64
  connectionsTotal : UInt64
  connectionsRejectedRateLimit : UInt64
  connectionsRejectedConnLimit : UInt64
  requestsRateLimited : UInt64

structure ServerSnapshot where
  connectedClients : UInt64
  queueCount : UInt64
  totalMessages : UInt64
  consumerCount : UInt64

/-- The entries of a map in the order in which they are visited. -/
structure Listing (Value : Type) where
  entries : List (String × Value)
  distinct : (entries.map Prod.fst).Nodup

/-- What one request reads.  Other tasks change the maps between the passes
over them, so nothing is said about how the passes agree. -/
structure StatusReads where
  snapshot : ServerSnapshot
  byIp : Listing UInt64
  byCn : Listing UInt64
  /-- The queues, each with the consumers found under its name. -/
  queues : List (String × List QueueEntry × Option (List ChannelId))
  bindings : List (String × List (String × String))
  exchanges : List (String × List String)
  /-- The second pass over the queues. -/
  queuesAgain : List (String × List QueueEntry)
  consumers : List (String × List ChannelId)
  uptimeSecs : UInt64
  maxQueueSize : UInt64
  counters : Counters
  connectedClients : UInt64

def len {Item : Type} (items : List Item) : UInt64 :=
  UInt64.ofNat items.length

def sum (values : List UInt64) : UInt64 :=
  values.foldl (· + ·) 0

/-- The bindings of all exchanges: exchange, queue and routing key. -/
def allBindings (bindings : List (String × List (String × String))) :
    List (String × String × String) :=
  bindings.flatMap fun entry =>
    entry.2.map fun binding => (entry.1, binding.1, binding.2)

namespace StatusReads

variable (reads : StatusReads)

def queueMembers (name : String) (queue : List QueueEntry)
    (consumers : Option (List ChannelId)) : List (String × Json) :=
  [("name", .string name),
    ("message_count", .number (len queue)),
    ("consumer_count", .number ((consumers.map len).getD 0))]

def bindingMembers (exchange queue routingKey : String) :
    List (String × Json) :=
  [("exchange", .string exchange),
    ("queue", .string queue),
    ("routing_key", .string routingKey)]

def serverMembers : List (String × Json) :=
  [("name", .string "CipherMQ Standalone"),
    ("uptime_secs", .number reads.uptimeSecs),
    ("health", .string "healthy"),
    ("max_queue_size", .number reads.maxQueueSize)]

def counterMembers : List (String × Json) :=
  [("messages_published", .number reads.counters.messagesPublished),
    ("messages_acked", .number reads.counters.messagesAcked),
    ("messages_delivered", .number reads.counters.messagesDelivered),
    ("errors_total", .number reads.counters.errorsTotal),
    ("connections_total", .number reads.counters.connectionsTotal),
    ("connections_rejected_rate_limit",
      .number reads.counters.connectionsRejectedRateLimit),
    ("connections_rejected_conn_limit",
      .number reads.counters.connectionsRejectedConnLimit),
    ("requests_rate_limited", .number reads.counters.requestsRateLimited)]

def snapshotMembers : List (String × Json) :=
  [("connected_clients", .number reads.snapshot.connectedClients),
    ("queue_count", .number reads.snapshot.queueCount),
    ("total_messages", .number reads.snapshot.totalMessages),
    ("consumer_count", .number reads.snapshot.consumerCount)]

def totalMessages : UInt64 :=
  sum (reads.queuesAgain.map fun entry => len entry.2)

def totalConsumers : UInt64 :=
  sum (reads.consumers.map fun entry => len entry.2)

def liveMembers : List (String × Json) :=
  [("connected_clients", .number reads.connectedClients),
    ("queues", .number (len reads.queues)),
    ("total_messages", .number reads.totalMessages),
    ("total_consumers", .number reads.totalConsumers),
    ("exchanges", .number (len reads.exchanges))]

def connectionMembers : List (String × Json) :=
  [("active_by_ip", .number (sum (reads.byIp.entries.map Prod.snd))),
    ("active_by_cn", .number (sum (reads.byCn.entries.map Prod.snd))),
    ("by_ip", objectOf (reads.byIp.entries.map (Prod.map id .number))),
    ("by_cn", objectOf (reads.byCn.entries.map (Prod.map id .number)))]

def statusMembers : List (String × Json) :=
  [("server", objectOf reads.serverMembers),
    ("counters", objectOf reads.counterMembers),
    ("snapshot", objectOf reads.snapshotMembers),
    ("live", objectOf reads.liveMembers),
    ("connection_stats", objectOf reads.connectionMembers),
    ("queues", .array (reads.queues.map fun entry =>
      objectOf (queueMembers entry.1 entry.2.1 entry.2.2))),
    ("bindings", .array ((allBindings reads.bindings).map fun binding =>
      objectOf (bindingMembers binding.1 binding.2.1 binding.2.2))),
    ("exchanges", .array (reads.exchanges.map fun entry => .string entry.1))]

def jsonStatus : Json :=
  objectOf reads.statusMembers

end StatusReads

inductive Command where
  | quit
  | json
  | metrics
  | status
  | connections
  | queues
  | unknown
  deriving DecidableEq, Repr

def commandOf (line : List Char) : Command :=
  let cmd := String.ofList (Text.trim line)
  if cmd = "quit" ∨ cmd = "exit" then .quit
  else if cmd = "json" then .json
  else if cmd = "metrics" then .metrics
  else if cmd = "status" then .status
  else if cmd = "connections" then .connections
  else if cmd = "queues" then .queues
  else .unknown

/-- The response to a line; the connection ends without one.  `render` gives
the texts meant for people. -/
def respond (codec : Json.Codec) (render : Command → List Char)
    (reads : StatusReads) (line : List Char) : Option (List Char) :=
  match commandOf line with
  | .quit => none
  | .json => some (codec.print reads.jsonStatus)
  | .unknown => some "Unknown command\n".toList
  | command => some (render command)

def serve (codec : Json.Codec) (render : Command → List Char)
    (reads : StatusReads) (line : List Char) : Option (List UInt8) :=
  (respond codec render reads line).map fun response =>
    Utf8.encode (String.ofList (response ++ ['\n']))

/-! ## The client -/

structure ServerInfo where
  name : String := ""
  uptimeSecs : UInt64 := 0
  health : String := ""
  maxQueueSize : UInt64 := 0

structure CounterData where
  messagesPublished : UInt64 := 0
  messagesAcked : UInt64 := 0
  messagesDelivered : UInt64 := 0
  errorsTotal : UInt64 := 0
  connectionsTotal : UInt64 := 0
  connectionsRejectedRateLimit : UInt64 := 0
  connectionsRejectedConnLimit : UInt64 := 0
  requestsRateLimited : UInt64 := 0

structure SnapshotData where
  connectedClients : UInt64 := 0
  queueCount : UInt64 := 0
  totalMessages : UInt64 := 0
  consumerCount : UInt64 := 0

structure LiveData where
  connectedClients : UInt64 := 0
  queues : UInt64 := 0
  totalMessages : UInt64 := 0
  totalConsumers : UInt64 := 0
  exchanges : UInt64 := 0

structure ConnStats where
  activeByIp : UInt64 := 0
  activeByCn : UInt64 := 0
  byCn : KeyMap String UInt64 := KeyMap.empty
  byIp : KeyMap String UInt64 := KeyMap.empty

structure QueueData where
  name : String
  messageCount : UInt64
  consumerCount : UInt64
  deriving DecidableEq, Repr

structure BindingData where
  exchange : String
  queue : String
  routingKey : String
  deriving DecidableEq, Repr

structure NodeData where
  server : ServerInfo
  counters : CounterData
  snapshot : SnapshotData
  live : LiveData
  connectionStats : ConnStats
  queues : List QueueData
  bindings : List BindingData
  exchanges : List String
  reachable : Bool
  lastUpdate : String

def ServerInfo.ofJson : Json → Option ServerInfo
  | .object members => do
      let name ← required asString "name" members
      let uptimeSecs ← required asNumber "uptime_secs" members
      let health ← required asString "health" members
      let maxQueueSize ← required asNumber "max_queue_size" members
      some ⟨name, uptimeSecs, health, maxQueueSize⟩
  | _ => none

def CounterData.ofJson : Json → Option CounterData
  | .object members => do
      let messagesPublished ← required asNumber "messages_published" members
      let messagesAcked ← required asNumber "messages_acked" members
      let messagesDelivered ← required asNumber "messages_delivered" members
      let errorsTotal ← required asNumber "errors_total" members
      let connectionsTotal ← required asNumber "connections_total" members
      let connectionsRejectedRateLimit ←
        required asNumber "connections_rejected_rate_limit" members
      let connectionsRejectedConnLimit ←
        required asNumber "connections_rejected_conn_limit" members
      let requestsRateLimited ←
        required asNumber "requests_rate_limited" members
      some ⟨messagesPublished, messagesAcked, messagesDelivered, errorsTotal,
        connectionsTotal, connectionsRejectedRateLimit,
        connectionsRejectedConnLimit, requestsRateLimited⟩
  | _ => none

def SnapshotData.ofJson : Json → Option SnapshotData
  | .object members => do
      let connectedClients ← required asNumber "connected_clients" members
      let queueCount ← required asNumber "queue_count" members
      let totalMessages ← required asNumber "total_messages" members
      let consumerCount ← required asNumber "consumer_count" members
      some ⟨connectedClients, queueCount, totalMessages, consumerCount⟩
  | _ => none

def LiveData.ofJson : Json → Option LiveData
  | .object members => do
      let connectedClients ← required asNumber "connected_clients" members
      let queues ← required asNumber "queues" members
      let totalMessages ← required asNumber "total_messages" members
      let totalConsumers ← required asNumber "total_consumers" members
      let exchanges ← required asNumber "exchanges" members
      some ⟨connectedClients, queues, totalMessages, totalConsumers, exchanges⟩
  | _ => none

def ConnStats.ofJson : Json → Option ConnStats
  | .object members => do
      let activeByIp ← required asNumber "active_by_ip" members
      let activeByCn ← required asNumber "active_by_cn" members
      let byCn ← required (asMap asNumber) "by_cn" members
      let byIp ← required (asMap asNumber) "by_ip" members
      some ⟨activeByIp, activeByCn, byCn, byIp⟩
  | _ => none

def QueueData.ofJson : Json → Option QueueData
  | .object members => do
      let name ← required asString "name" members
      let messageCount ← required asNumber "message_count" members
      let consumerCount ← required asNumber "consumer_count" members
      some ⟨name, messageCount, consumerCount⟩
  | _ => none

def BindingData.ofJson : Json → Option BindingData
  | .object members => do
      let exchange ← required asString "exchange" members
      let queue ← required asString "queue" members
      let routingKey ← required asString "routing_key" members
      some ⟨exchange, queue, routingKey⟩
  | _ => none

/-- Every field of a node may be missing, and then has its default. -/
def NodeData.ofJson : Json → Option NodeData
  | .object members => do
      let server ← withDefault {} ServerInfo.ofJson "server" members
      let counters ← withDefault {} CounterData.ofJson "counters" members
      let snapshot ← withDefault {} SnapshotData.ofJson "snapshot" members
      let live ← withDefault {} LiveData.ofJson "live" members
      let connectionStats ←
        withDefault {} ConnStats.ofJson "connection_stats" members
      let queues ← withDefault [] (asList QueueData.ofJson) "queues" members
      let bindings ←
        withDefault [] (asList BindingData.ofJson) "bindings" members
      let exchanges ← withDefault [] (asList asString) "exchanges" members
      let reachable ← withDefault false asBool "reachable" members
      let lastUpdate ← withDefault "" asString "last_update" members
      some ⟨server, counters, snapshot, live, connectionStats, queues,
        bindings, exchanges, reachable, lastUpdate⟩
  | _ => none

def newline : UInt8 := 0x0A

inductive QueryError where
  | readError
  | serverClosed
  deriving DecidableEq, Repr

/-- Take the first line with its end from a stream of bytes, and what is left
of the stream. -/
def readLine (stream : List UInt8) : List UInt8 × List UInt8 :=
  let line := stream.takeWhile (· ≠ newline)
  match stream.dropWhile (· ≠ newline) with
  | [] => (line, [])
  | byte :: rest => (line ++ [byte], rest)

/-- What the client makes of the first line of a stream. -/
def responseOf (line : List UInt8) : Except QueryError (List Char) :=
  match Utf8.decode line with
  | none => .error .readError
  | some response =>
      if response = "" then .error .serverClosed
      else .ok (Text.trim response.toList)

def commandLine (command : String) : List Char :=
  command.toList ++ ['\n']

def query (stream : List UInt8) : Except QueryError (List Char) × List UInt8 :=
  (responseOf (readLine stream).1, (readLine stream).2)

def NodeData.fromStr (codec : Json.Codec) (response : List Char) :
    Option NodeData :=
  (codec.parse response).bind NodeData.ofJson

/-! ## The fields agree -/

namespace StatusReads

variable (reads : StatusReads)

def serverInfo : ServerInfo where
  name := "CipherMQ Standalone"
  uptimeSecs := reads.uptimeSecs
  health := "healthy"
  maxQueueSize := reads.maxQueueSize

def counterData : CounterData where
  messagesPublished := reads.counters.messagesPublished
  messagesAcked := reads.counters.messagesAcked
  messagesDelivered := reads.counters.messagesDelivered
  errorsTotal := reads.counters.errorsTotal
  connectionsTotal := reads.counters.connectionsTotal
  connectionsRejectedRateLimit := reads.counters.connectionsRejectedRateLimit
  connectionsRejectedConnLimit := reads.counters.connectionsRejectedConnLimit
  requestsRateLimited := reads.counters.requestsRateLimited

def snapshotData : SnapshotData where
  connectedClients := reads.snapshot.connectedClients
  queueCount := reads.snapshot.queueCount
  totalMessages := reads.snapshot.totalMessages
  consumerCount := reads.snapshot.consumerCount

def liveData : LiveData where
  connectedClients := reads.connectedClients
  queues := len reads.queues
  totalMessages := reads.totalMessages
  totalConsumers := reads.totalConsumers
  exchanges := len reads.exchanges

def connStats : ConnStats where
  activeByIp := sum (reads.byIp.entries.map Prod.snd)
  activeByCn := sum (reads.byCn.entries.map Prod.snd)
  byCn := fun cn => reads.byCn.entries.lookup cn
  byIp := fun ip => reads.byIp.entries.lookup ip

/-- The record a client should have: every field holds what the server has
read for it. -/
def nodeData : NodeData where
  server := reads.serverInfo
  counters := reads.counterData
  snapshot := reads.snapshotData
  live := reads.liveData
  connectionStats := reads.connStats
  queues := reads.queues.map fun entry =>
    ⟨entry.1, len entry.2.1, (entry.2.2.map len).getD 0⟩
  bindings := (allBindings reads.bindings).map fun binding =>
    ⟨binding.1, binding.2.1, binding.2.2⟩
  exchanges := reads.exchanges.map Prod.fst
  reachable := false
  lastUpdate := ""

theorem ofJson_serverMembers :
    ServerInfo.ofJson (objectOf reads.serverMembers) =
      some reads.serverInfo := by
  have distinct : (reads.serverMembers.map Prod.fst).Nodup := by
    simp [serverMembers]
  simp only [objectOf, ServerInfo.ofJson,
    Json.required_sortMembers distinct]
  rfl

theorem ofJson_counterMembers :
    CounterData.ofJson (objectOf reads.counterMembers) =
      some reads.counterData := by
  have distinct : (reads.counterMembers.map Prod.fst).Nodup := by
    simp [counterMembers]
  simp only [objectOf, CounterData.ofJson,
    Json.required_sortMembers distinct]
  rfl

theorem ofJson_snapshotMembers :
    SnapshotData.ofJson (objectOf reads.snapshotMembers) =
      some reads.snapshotData := by
  have distinct : (reads.snapshotMembers.map Prod.fst).Nodup := by
    simp [snapshotMembers]
  simp only [objectOf, SnapshotData.ofJson,
    Json.required_sortMembers distinct]
  rfl

theorem ofJson_liveMembers :
    LiveData.ofJson (objectOf reads.liveMembers) = some reads.liveData := by
  have distinct : (reads.liveMembers.map Prod.fst).Nodup := by
    simp [liveMembers]
  simp only [objectOf, LiveData.ofJson,
    Json.required_sortMembers distinct]
  rfl

theorem asMap_entries (listing : Listing UInt64) :
    asMap asNumber (objectOf (listing.entries.map (Prod.map id .number))) =
      some fun name => listing.entries.lookup name := by
  have inverse : ∀ value, asNumber (.number value) = some value :=
    fun _ => rfl
  exact Json.asMap_objectOf inverse listing.distinct

theorem ofJson_connectionMembers :
    ConnStats.ofJson (objectOf reads.connectionMembers) =
      some reads.connStats := by
  have distinct : (reads.connectionMembers.map Prod.fst).Nodup := by
    simp [connectionMembers]
  simp only [objectOf, ConnStats.ofJson, Json.required_sortMembers distinct]
  simp [connectionMembers, List.lookup_cons, asNumber, asMap_entries, connStats]

theorem ofJson_queueMembers (name : String) (queue : List QueueEntry)
    (consumers : Option (List ChannelId)) :
    QueueData.ofJson (objectOf (queueMembers name queue consumers)) =
      some ⟨name, len queue, (consumers.map len).getD 0⟩ := by
  have distinct : ((queueMembers name queue consumers).map Prod.fst).Nodup := by
    simp [queueMembers]
  simp only [objectOf, QueueData.ofJson,
    Json.required_sortMembers distinct]
  rfl

theorem ofJson_bindingMembers (exchange queue routingKey : String) :
    BindingData.ofJson (objectOf (bindingMembers exchange queue routingKey)) =
      some ⟨exchange, queue, routingKey⟩ := by
  have distinct :
      ((bindingMembers exchange queue routingKey).map Prod.fst).Nodup := by
    simp [bindingMembers]
  simp only [objectOf, BindingData.ofJson,
    Json.required_sortMembers distinct]
  rfl

theorem ofJson_jsonStatus :
    NodeData.ofJson reads.jsonStatus = some reads.nodeData := by
  have distinct : (reads.statusMembers.map Prod.fst).Nodup := by
    simp [statusMembers]
  have queues : ∀ entry : String × List QueueEntry × Option (List ChannelId),
      _ := fun entry => ofJson_queueMembers entry.1 entry.2.1 entry.2.2
  have bindings : ∀ binding : String × String × String, _ :=
    fun binding => ofJson_bindingMembers binding.1 binding.2.1 binding.2.2
  have exchanges : ∀ entry : String × List String,
      asString (.string entry.1) = some entry.1 := fun _ => rfl
  rw [jsonStatus, objectOf, NodeData.ofJson]
  simp only [Json.withDefault_sortMembers distinct]
  simp [statusMembers, List.lookup_cons, ofJson_serverMembers,
    ofJson_counterMembers, ofJson_snapshotMembers, ofJson_liveMembers,
    ofJson_connectionMembers, Json.asList_map queues,
    Json.asList_map bindings, Json.asList_map exchanges, nodeData]

end StatusReads

/-! ## The line is read back -/

theorem readLine_append {line : List UInt8} (oneLine : newline ∉ line)
    (rest : List UInt8) :
    readLine (line ++ newline :: rest) = (line ++ [newline], rest) := by
  have inside : ∀ byte ∈ line, (decide (byte ≠ newline)) = true := by
    intro byte member
    have different : byte ≠ newline := by
      rintro rfl
      exact oneLine member
    simpa using different
  unfold readLine
  rw [List.takeWhile_append_of_pos inside, List.dropWhile_append_of_pos inside]
  simp

theorem encode_append_newline (line : List Char) :
    Utf8.encode (String.ofList (line ++ ['\n'])) =
      Utf8.encode (String.ofList line) ++ [newline] := by
  rw [Utf8.encode_eq_flatMap, Utf8.encode_eq_flatMap, String.toList_ofList,
    String.toList_ofList, List.flatMap_append]
  rfl

theorem newline_not_mem_encode {line : List Char} (oneLine : '\n' ∉ line) :
    newline ∉ Utf8.encode (String.ofList line) := by
  intro member
  have inLine := Utf8.newline_mem_of_mem_encode member
  rw [String.toList_ofList] at inLine
  exact oneLine inLine

/-- A line without blanks at its ends comes through as it was written, and
what follows it is left for the next query. -/
theorem query_line {line : List Char} (oneLine : '\n' ∉ line)
    (trimmed : Text.trim line = line) (rest : List UInt8) :
    query (Utf8.encode (String.ofList (line ++ ['\n'])) ++ rest) =
      (.ok line, rest) := by
  have taken : readLine
      (Utf8.encode (String.ofList (line ++ ['\n'])) ++ rest) =
        (Utf8.encode (String.ofList (line ++ ['\n'])), rest) := by
    rw [encode_append_newline, List.append_assoc]
    exact readLine_append (newline_not_mem_encode oneLine) rest
  have nonempty : String.ofList (line ++ ['\n']) ≠ "" := by
    intro isEmpty
    have noText := congrArg String.toList isEmpty
    simp at noText
  have blank : Text.Blank ['\n'] := by decide
  rw [query, taken]
  simp only [responseOf, Utf8.decode_encode, if_neg nonempty,
    String.toList_ofList, Text.trim_append_right blank, trimmed]

theorem commandOf_json : commandOf (commandLine "json") = .json := by
  decide

section RoundTrip

variable (codec : Json.Codec) (render : Command → List Char)

theorem serve_json (reads : StatusReads) :
    serve codec render reads (commandLine "json") =
      some (Utf8.encode (String.ofList
        (codec.print reads.jsonStatus ++ ['\n']))) := by
  simp only [serve, respond, commandOf_json, Option.map_some]

theorem fromStr_jsonStatus (reads : StatusReads) :
    NodeData.fromStr codec (codec.print reads.jsonStatus) =
      some reads.nodeData := by
  rw [NodeData.fromStr, codec.parse_print, Option.bind_some]
  exact reads.ofJson_jsonStatus

/-- The answer to `json` is one line, the client takes exactly this line from
the stream, and the record it reads from the line holds what the server has
read. -/
theorem status_round_trip (reads : StatusReads) (rest : List UInt8) :
    ∃ line bytes,
      serve codec render reads (commandLine "json") =
        some (bytes ++ [newline]) ∧
      newline ∉ bytes ∧
      query (bytes ++ [newline] ++ rest) = (.ok line, rest) ∧
      NodeData.fromStr codec line = some reads.nodeData := by
  have oneLine := codec.newline_not_mem reads.jsonStatus
  have trimmed := codec.trim_print reads.jsonStatus
  refine ⟨codec.print reads.jsonStatus, _, ?_,
    newline_not_mem_encode oneLine, ?_, fromStr_jsonStatus codec reads⟩
  · rw [serve_json, encode_append_newline]
  · rw [← encode_append_newline]
    exact query_line oneLine trimmed rest

/-- A broker with one queue, whose name would break a line if it were written
as it is. -/
def awkwardQueue : StatusReads where
  snapshot := ⟨0, 0, 0, 0⟩
  byIp := ⟨[("10.0.0.1", 2)], List.nodup_singleton _⟩
  byCn := ⟨[], List.nodup_nil⟩
  queues := [("orders\n\"", [], some [0])]
  bindings := []
  exchanges := []
  queuesAgain := []
  consumers := []
  uptimeSecs := 1
  maxQueueSize := 1000
  counters := ⟨0, 0, 0, 0, 2, 0, 0, 0⟩
  connectedClients := 2

theorem status_round_trip_awkwardQueue : ∃ line,
    query (((serve Json.compact (fun _ => []) awkwardQueue
      (commandLine "json")).getD []) ++ [1, 2]) = (.ok line, [1, 2]) ∧
    (NodeData.fromStr Json.compact line).map NodeData.queues =
      some [⟨"orders\n\"", 0, 1⟩] := by
  obtain ⟨line, bytes, served, -, queried, read⟩ :=
    status_round_trip Json.compact (fun _ => []) awkwardQueue [1, 2]
  refine ⟨line, ?_, ?_⟩
  · rw [served]
    exact queried
  · rw [read]
    rfl

/-! ## Sessions -/

def serveAll : List (StatusReads × List Char) → List UInt8
  | [] => []
  | (reads, line) :: requests =>
      match serve codec render reads line with
      | none => []
      | some bytes => bytes ++ serveAll requests

/-- One poll: a record that can be read replaces the one shown. -/
def poll (node : NodeData) (clock : String) (stream : List UInt8) :
    Except QueryError (NodeData × List UInt8) :=
  match query stream with
  | (.error error, _) => .error error
  | (.ok response, rest) =>
      match NodeData.fromStr codec response with
      | some data =>
          .ok ({ data with reachable := true, lastUpdate := clock }, rest)
      | none => .ok (node, rest)

def runSession (node : NodeData) :
    List String → List UInt8 → Except QueryError (List NodeData)
  | [], _ => .ok []
  | clock :: clocks, stream => do
      let (shown, rest) ← poll codec node clock stream
      let later ← runSession shown clocks rest
      .ok (shown :: later)

/-- The record that a poll at a given time should show. -/
def StatusReads.shown (reads : StatusReads) (clock : String) : NodeData :=
  { reads.nodeData with reachable := true, lastUpdate := clock }

theorem poll_served (node : NodeData) (clock : String) (reads : StatusReads)
    (requests : List (StatusReads × List Char)) :
    poll codec node clock
        (serveAll codec render ((reads, commandLine "json") :: requests)) =
      .ok (reads.shown clock, serveAll codec render requests) := by
  have taken := query_line (codec.newline_not_mem reads.jsonStatus)
    (codec.trim_print reads.jsonStatus) (serveAll codec render requests)
  simp only [poll, serveAll, serve_json, taken, fromStr_jsonStatus]
  rfl

/-- The polls of a session show one after the other what the server has read
for them; no answer is lost or taken for another. -/
theorem runSession_served (node : NodeData)
    (polls : List (StatusReads × String)) :
    runSession codec node (polls.map Prod.snd)
        (serveAll codec render
          (polls.map fun served => (served.1, commandLine "json"))) =
      .ok (polls.map fun served => served.1.shown served.2) := by
  induction polls generalizing node with
  | nil => rfl
  | cons served polls ih =>
      simp only [List.map_cons, runSession, poll_served, bind, Except.bind, ih]

end RoundTrip

/-! ## A broker at rest -/

/-- A visit of all entries of a map that nobody changes. -/
structure Visit {Value : Type} (map : KeyMap String Value)
    extends Listing Value where
  mem_iff : ∀ key value, (key, value) ∈ entries ↔ map key = some value

def Listing.map {Value Other : Type} (change : Value → Other)
    (listing : Listing Value) : Listing Other where
  entries := listing.entries.map (Prod.map id change)
  distinct := by
    rw [List.map_map]
    exact listing.distinct

theorem Visit.lookup {Value : Type} {map : KeyMap String Value}
    (visit : Visit map) (key : String) : visit.entries.lookup key = map key := by
  apply Option.ext
  intro value
  rw [KeyMap.lookup_eq_some_iff visit.distinct, visit.mem_iff]

theorem lookup_map {Value Other : Type} (change : Value → Other)
    (entries : List (String × Value)) (key : String) :
    (entries.map (Prod.map id change)).lookup key =
      (entries.lookup key).map change := by
  induction entries with
  | nil => rfl
  | cons entry entries ih =>
      obtain ⟨name, value⟩ := entry
      simp only [List.map_cons, Prod.map, id_eq, List.lookup_cons] at ih ⊢
      rw [ih]
      cases key == name <;> rfl

section AtRest

variable {state : ServerState} {connections : Connections}
  (queues : Visit state.queues) (bindings : Visit state.bindings)
  (exchanges : Visit state.exchanges) (consumers : Visit state.consumers)
  (byIp : Visit connections.byIp) (byCn : Visit connections.byCn)
  (snapshot : ServerSnapshot) (counters : Counters) (uptimeSecs : UInt64)

def StatusReads.atRest : StatusReads where
  snapshot := snapshot
  byIp := byIp.toListing.map UInt64.ofNat
  byCn := byCn.toListing.map UInt64.ofNat
  queues := queues.entries.map fun entry =>
    (entry.1, entry.2, state.consumers entry.1)
  bindings := bindings.entries
  exchanges := exchanges.entries
  queuesAgain := queues.entries
  consumers := consumers.entries
  uptimeSecs := uptimeSecs
  maxQueueSize := UInt64.ofNat state.maxQueueSize
  counters := counters
  connectedClients := UInt64.ofNat state.connectedClients

end AtRest

/-- A record shows a broker: its lists and maps have exactly the entries of
the broker's, and its totals are those of its lists. -/
structure Shows (data : NodeData) (state : ServerState)
    (connections : Connections) : Prop where
  queues : ∀ queue : QueueData, queue ∈ data.queues ↔
    ∃ entries, state.queues queue.name = some entries ∧
      queue.messageCount = len entries ∧
      queue.consumerCount = len ((state.consumers queue.name).getD [])
  bindings : ∀ binding : BindingData, binding ∈ data.bindings ↔
    ∃ bindings, state.bindings binding.exchange = some bindings ∧
      (binding.queue, binding.routingKey) ∈ bindings
  exchanges : ∀ name, name ∈ data.exchanges ↔
    (state.exchanges name).isSome = true
  byIp : ∀ ip, data.connectionStats.byIp ip =
    (connections.byIp ip).map UInt64.ofNat
  byCn : ∀ cn, data.connectionStats.byCn cn =
    (connections.byCn cn).map UInt64.ofNat
  liveQueues : data.live.queues = len data.queues
  liveExchanges : data.live.exchanges = len data.exchanges
  totalMessages : data.live.totalMessages =
    sum (data.queues.map QueueData.messageCount)

/-- While no other task runs, a poll shows the broker as it is. -/
theorem shows_atRest {state : ServerState} {connections : Connections}
    (queues : Visit state.queues) (bindings : Visit state.bindings)
    (exchanges : Visit state.exchanges) (consumers : Visit state.consumers)
    (byIp : Visit connections.byIp) (byCn : Visit connections.byCn)
    (snapshot : ServerSnapshot) (counters : Counters) (uptimeSecs : UInt64)
    (clock : String) :
    Shows ((StatusReads.atRest queues bindings exchanges consumers byIp byCn
      snapshot counters uptimeSecs).shown clock) state connections := by
  have consumerCount : ∀ found : Option (List ChannelId),
      (found.map len).getD 0 = len (found.getD []) := by
    intro found
    cases found <;> rfl
  constructor
  case queues =>
    rintro ⟨name, messageCount, count⟩
    simp only [StatusReads.shown, StatusReads.nodeData, StatusReads.atRest,
      List.map_map, List.mem_map, Function.comp_apply, consumerCount,
      Prod.exists, queues.mem_iff, QueueData.mk.injEq]
    constructor
    · rintro ⟨name, entries, found, rfl, rfl, rfl⟩
      exact ⟨entries, found, rfl, rfl⟩
    · rintro ⟨entries, found, rfl, rfl⟩
      exact ⟨name, entries, found, rfl, rfl, rfl⟩
  case bindings =>
    rintro ⟨exchange, queue, routingKey⟩
    simp only [StatusReads.shown, StatusReads.nodeData, StatusReads.atRest,
      allBindings, List.mem_map, List.mem_flatMap, Prod.exists,
      bindings.mem_iff, BindingData.mk.injEq, Prod.mk.injEq]
    constructor
    · rintro ⟨_, _, _, ⟨_, listed, found, _, _, member, rfl, rfl, rfl⟩,
        rfl, rfl, rfl⟩
      exact ⟨listed, found, member⟩
    · rintro ⟨listed, found, member⟩
      exact ⟨exchange, queue, routingKey,
        ⟨exchange, listed, found, queue, routingKey, member, rfl, rfl, rfl⟩,
        rfl, rfl, rfl⟩
  case exchanges =>
    intro name
    simp only [StatusReads.shown, StatusReads.nodeData, StatusReads.atRest,
      List.mem_map, Prod.exists, exchanges.mem_iff, Option.isSome_iff_exists]
    constructor
    · rintro ⟨_, queues, found, rfl⟩
      exact ⟨queues, found⟩
    · rintro ⟨queues, found⟩
      exact ⟨name, queues, found, rfl⟩
  case byIp =>
    intro ip
    exact (lookup_map _ _ ip).trans (congrArg _ (byIp.lookup ip))
  case byCn =>
    intro cn
    exact (lookup_map _ _ cn).trans (congrArg _ (byCn.lookup cn))
  case liveQueues =>
    simp [StatusReads.shown, StatusReads.nodeData, StatusReads.liveData, len]
  case liveExchanges =>
    simp [StatusReads.shown, StatusReads.nodeData, StatusReads.liveData, len]
  case totalMessages =>
    simp only [StatusReads.shown, StatusReads.nodeData, StatusReads.liveData,
      StatusReads.totalMessages, StatusReads.atRest, List.map_map]
    rfl

end Admin

end CipherMQ
