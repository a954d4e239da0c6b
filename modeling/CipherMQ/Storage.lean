import Mathlib.Data.List.Basic

/-!
# The storage handle

`Storage` is a handle on a worker task: every method puts a command on the
worker's channel, and the awaited ones return the worker's reply.  The replies
come from PostgreSQL and are inputs of the model; the commands a handler
issues are part of its effect and are recorded in the order in which they
enter the channel.
-/

namespace CipherMQ

inductive StorageError where
  | postgres (error : String)
  | channelSend (error : String)
  | channelReceive
  | encryptionError (error : String)
  deriving DecidableEq, Repr

def StorageError.display : StorageError → String
  | .postgres error => "PostgreSQL error: " ++ error
  | .channelSend error => "Channel send error: " ++ error
  | .channelReceive => "Channel receive error"
  | .encryptionError error => "Encryption error: " ++ error

structure MessageMetadata where
  messageId : String
  clientId : String
  exchangeName : String
  routingKey : String
  sentTime : Option String
  deliveredTime : Option String
  acknowledgedTime : Option String
  deriving DecidableEq, Repr

structure PublicKeyData where
  clientId : String
  publicKey : String
  deriving DecidableEq, Repr

/-- The commands the message handlers put on the worker's channel. -/
inductive StorageCommand where
  | saveMetadata (metadata : MessageMetadata)
  | updateDeliveredTimeAsync (messageId time : String)
  | updateAcknowledgedTimeAsync (messageId time : String)
  | getClientIdForMessage (messageId : String)
  | savePublicKey (keyData : PublicKeyData)
  | getPublicKey (clientId : String)
  deriving DecidableEq, Repr

/-- The worker's channel, as the commands sent on it so far. -/
structure Storage where
  sender : List StorageCommand
  deriving DecidableEq, Repr

namespace Storage

def send (storage : Storage) (command : StorageCommand) : Storage :=
  { sender := storage.sender ++ [command] }

/-- Put a command on the worker's channel and wait for the reply.  When the
channel is already closed the command never reaches the worker. -/
def request {Answer : Type} (storage : Storage) (command : StorageCommand)
    (unsent : String) (reply : Except StorageError Answer) :
    Storage × Except StorageError Answer :=
  match reply with
  | .error (.channelSend _) => (storage, .error (.channelSend unsent))
  | reply => (storage.send command, reply)

/-- A request succeeds if the worker replies so. -/
theorem request_ok_iff {Answer : Type} (storage : Storage)
    (command : StorageCommand) (unsent : String)
    (reply : Except StorageError Answer) (answer : Answer) :
    (storage.request command unsent reply).2 = .ok answer ↔
      reply = .ok answer := by
  rcases reply with error | value
  · cases error <;> simp [request]
  · rfl

def saveMetadata (storage : Storage) (metadata : MessageMetadata)
    (reply : Except StorageError Unit) :
    Storage × Except StorageError Unit :=
  storage.request (.saveMetadata metadata)
    "Failed to send SaveMetadata command" reply

def getClientIdForMessage (storage : Storage) (messageId : String)
    (reply : Except StorageError (Option String)) :
    Storage × Except StorageError (Option String) :=
  storage.request (.getClientIdForMessage messageId)
    "Failed to send GetClientIdForMessage command" reply

def savePublicKey (storage : Storage) (keyData : PublicKeyData)
    (reply : Except StorageError Unit) :
    Storage × Except StorageError Unit :=
  storage.request (.savePublicKey keyData)
    "Failed to send SavePublicKey command" reply

def getPublicKey (storage : Storage) (clientId : String)
    (reply : Except StorageError (Option String)) :
    Storage × Except StorageError (Option String) :=
  storage.request (.getPublicKey clientId)
    "Failed to send GetPublicKey command" reply

def updateDeliveredTimeAsync (storage : Storage) (messageId time : String) :
    Storage :=
  storage.send (.updateDeliveredTimeAsync messageId time)

def updateAcknowledgedTimeAsync (storage : Storage)
    (messageId time : String) : Storage :=
  storage.send (.updateAcknowledgedTimeAsync messageId time)

end Storage

end CipherMQ
