import ChatRelay.Config.Basic

/-!
# Loading the configuration

The settings are read in a fixed order and the first one that is at fault is reported: the raw
listeners, the registry, then all others, and last the rules that several settings or more than
their type have to obey. What is not needed is not read: the other settings of raw listeners
without a port, and those of the registry without its URL.
-/

namespace ChatRelay.Config.AppConfig

open Variables

/-- The URL of the registry's backend. It alone is taken as it stands, so that blanks count. -/
def redisUrl? (vars : Variables) : Option String :=
  (vars "REDIS_URL").filter fun url => !url.isEmpty

def loadTcp (vars : Variables) : Except ConfigError (Option TcpConfig) := do
  let ports ← list vars "GATEWAY_TCP_PORTS" port?
  if ports.isEmpty then
    return none
  let acceptors ← get? vars "GATEWAY_TCP_ACCEPTORS" count?
  let keepalive ← getD vars "GATEWAY_TCP_KEEPALIVE" bool? false
  let receiveBuffer ← getD vars "GATEWAY_TCP_RECV_BUF" count? 4096
  let sendBuffer ← getD vars "GATEWAY_TCP_SEND_BUF" count? 4096
  return some { ports, acceptors, keepalive, receiveBuffer, sendBuffer }

def loadRegistry (vars : Variables) : Except ConfigError (Option RegistryConfig) := do
  match redisUrl? vars with
  | none => return none
  | some redisUrl =>
    let maxConnections ← getD vars "REDIS_MAX_CONNECTIONS" count? 10
    let basePath := (text? vars "REGISTRY_BASE_PATH").getD "chat/connect"
    let ttlSeconds ← getD vars "REGISTRY_TTL_SECS" count? 90
    return some { redisUrl, maxConnections, basePath, ttlSeconds }

/-- Read all settings, each at its type. -/
def read (vars : Variables) : Except ConfigError AppConfig := do
  let tcp ← loadTcp vars
  let registry ← loadRegistry vars
  let name := (text? vars "APP_NAME").getD "chat-gateway"
  let environment ← getD vars "APP_ENV" Environment.ofText? .development
  let logFormat ← getD vars "LOG_FORMAT" LogFormat.ofText? .pretty
  let host := (text? vars "GATEWAY_HOST").getD "127.0.0.1"
  let wsPort ← require vars "GATEWAY_WS_PORT" port?
  let wsPath := (text? vars "GATEWAY_WS_PATH").getD "/ws"
  let rpcPort ← require vars "GATEWAY_RPC_PORT" port?
  let serverId := text? vars "GATEWAY_SERVER_ID"
  let bucketCount ← get? vars "BUCKET_COUNT" count?
  let channelSize ← getD vars "BUCKET_CHANNEL_SIZE" count? 1024
  let roomSize ← getD vars "BUCKET_ROOM_SIZE" count? 1024
  let routineAmount ← getD vars "BUCKET_ROUTINE_AMOUNT" count? 32
  let routineSize ← getD vars "BUCKET_ROUTINE_SIZE" count? 20
  let standard := ConnectionOptions.standard
  let writeWait ← getD vars "WRITE_WAIT_SECS" count? standard.writeWait
  let pongWait ← getD vars "PONG_WAIT_SECS" count? standard.pongWait
  let pingPeriod ← getD vars "PING_PERIOD_SECS" count? standard.pingPeriod
  let maxMessageSize ← getD vars "MAX_MESSAGE_SIZE" count? standard.maxMessageSize
  let writeBufferSize ← getD vars "WRITE_BUFFER_SIZE" count? standard.writeBufferSize
  let broadcastSize ← getD vars "BROADCAST_SIZE" count? standard.broadcastSize
  let connection :=
    { writeWait, pongWait, pingPeriod, maxMessageSize, writeBufferSize, broadcastSize }
  let logicUrl ← require vars "LOGIC_URL" some
  let logicTimeoutMillis ← getD vars "LOGIC_TIMEOUT_MS" count? 5000
  let workerId ← getD vars "WORKER_ID" port? 0
  return {
    name, environment, logFormat, host, wsPort, wsPath, rpcPort, serverId, tcp, bucketCount
    channelSize, roomSize, routineAmount, routineSize, connection, logicUrl, logicTimeoutMillis
    registry, workerId }

/-- The rules that go beyond the type of one setting. -/
def validate (c : AppConfig) : Except ConfigError Unit :=
  if c.bucketCount = some 0 then .error (.invalid "BUCKET_COUNT" "must be > 0")
  else if c.routineAmount = 0 then .error (.invalid "BUCKET_ROUTINE_AMOUNT" "must be > 0")
  else if c.connection.broadcastSize = 0 then .error (.invalid "BROADCAST_SIZE" "must be > 0")
  else if c.connection.pongWait ≤ c.connection.pingPeriod then
    .error (.invalid "PING_PERIOD_SECS" "must be shorter than PONG_WAIT_SECS")
  else if SequenceId.maxWorker < c.workerId then
    .error (.invalid "WORKER_ID" ("must be at most " ++ toString SequenceId.maxWorker))
  else .ok ()

/-- The configuration that the variables describe. -/
def load (vars : Variables) : Except ConfigError AppConfig := do
  let c ← read vars
  validate c
  return c

end ChatRelay.Config.AppConfig
